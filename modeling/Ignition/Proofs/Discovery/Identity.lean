import Ignition.Proofs.Config.Options
import Ignition.Proofs.Config.ProfileLists
import Ignition.Proofs.Discovery.Failures
import Ignition.Proofs.Discovery.Precedence

/-!
# The names of layers

The name of a layer tells the location it was read from and the profile it was read for, if no profile has white space in its name
(`layerName_inj`): what is behind the last space is the profile, whatever the location looks like. The profiles that lists ask for have no
white space in their names (`ProfileSet.name_of_parse`). So if the profiles that are active from the beginning and those that stand in have
none either, layers for different locations or profiles have different names, and none of them takes the place of another
(`identity_of_run`).
-/

namespace Ignition

namespace Discovery

/-! ## What a name tells -/

section Names

variable {location place : String} {wanted other : Option String}

/-- A layer for a profile has the profile behind the last space in its name. -/
theorem cutLast_layerName {profile : String} (h : hasBlank profile = false) :
    Text.cutLast ' ' (layerName location (some profile)).toList =
      some ((layerName location none).toList, "(profile=".toList ++ profile.toList ++ [')']) := by
  have hspace : ' ' ∉ "(profile=".toList ++ profile.toList ++ [')'] := by
    have hprofile : ' ' ∉ profile.toList := fun hmem => nomatch ProfileSet.hasBlank_eq_false_iff.mp h ' ' hmem
    simpa using hprofile
  have hname : (layerName location (some profile)).toList =
      (layerName location none).toList ++ ' ' :: ("(profile=".toList ++ profile.toList ++ [')']) := by
    simp [layerName]
  rw [hname, Text.cutLast_append hspace]

/-- A name tells the location and the profile. -/
theorem layerName_inj (hwanted : ∀ profile ∈ wanted, hasBlank profile = false)
    (hother : ∀ profile ∈ other, hasBlank profile = false) :
    layerName location wanted = layerName place other ↔ location = place ∧ wanted = other := by
  refine ⟨fun h => ?_, fun ⟨hlocation, hsame⟩ => hlocation ▸ hsame ▸ rfl⟩
  cases other with
  | none => exact layerName_none_eq_iff.mp h
  | some profile =>
    cases wanted with
    | none =>
      obtain ⟨-, hnone⟩ := layerName_none_eq_iff.mp h.symm
      nomatch hnone
    | some profile' =>
      have hcut := congrArg (fun name => Text.cutLast ' ' name.toList) h
      simp only [cutLast_layerName (hwanted profile' rfl), cutLast_layerName (hother profile rfl), Option.some.injEq, Prod.mk.injEq,
        List.append_cancel_right_eq, List.append_cancel_left_eq, String.toList_inj] at hcut
      obtain ⟨hlocation, rfl⟩ := hcut
      exact ⟨(layerName_none_eq_iff.mp hlocation).1, rfl⟩

end Names

/-! ## Layers that are put into an environment -/

section Placing

variable {hasDefaults : Bool} {env : Environment} {layer other : Layer} {loaded : List Layer}

/-- Wherever a layer is put that a search has read, it leaves another one there. -/
def Spares (layer other : Layer) : Prop :=
  ∀ (hasDefaults : Bool) (env : Environment), other ∈ env.layers → other ∈ (place hasDefaults env layer).layers

/-- A layer takes the place of none that has another name. -/
theorem spares_of_name_ne (h : other.name ≠ layer.name) : Spares layer other := by
  intro hasDefaults env hmem
  have hkept := Environment.mem_remove hmem h
  unfold place
  cases hasDefaults with
  | false => exact List.mem_append_left _ hkept
  | true =>
    rw [if_pos rfl, Environment.addBefore?]
    split
    · exact hmem
    · exact Environment.mem_spliceAt (by simp) hkept

/-- A layer is there when it was put, unless it should go ahead of the layer of last resort and there is none. -/
theorem mem_place_self (hdefaults : hasDefaults = true → LayerName.defaults ∈ env.layerNames)
    (hne : layer.name ≠ LayerName.defaults) : layer ∈ (place hasDefaults env layer).layers := by
  unfold place
  cases hasDefaults with
  | false => exact List.mem_append_right _ List.mem_cons_self
  | true =>
    obtain ⟨found, hmem, hfound⟩ := List.mem_map.mp (hdefaults rfl)
    have hhas : env.hasLayer LayerName.defaults = true := Environment.hasLayer_iff.mpr (hdefaults rfl)
    have hkept : found ∈ (env.remove layer.name).layers := Environment.mem_remove hmem (hfound ▸ hne.symm)
    rw [if_pos rfl, Environment.addBefore?, if_neg (by simp [hne.symm, hhas])]
    exact Environment.mem_spliceAt_self (by simp) (List.mem_map.mpr ⟨found, hkept, hfound⟩)

/-- The layer of last resort stays there when others are put ahead of it. -/
theorem defaults_mem_place (h : LayerName.defaults ∈ env.layerNames) : LayerName.defaults ∈ (place true env layer).layerNames := by
  by_cases hname : LayerName.defaults = layer.name
  · have hnone : env.addBefore? LayerName.defaults layer = none := Environment.addBefore?_eq_none_iff.mpr (.inl hname)
    rwa [place, if_pos rfl, hnone]
  · obtain ⟨found, hmem, hfound⟩ := List.mem_map.mp h
    exact List.mem_map.mpr ⟨found, spares_of_name_ne (hfound ▸ hname) true env hmem, hfound⟩

/-- The layer of last resort stays when others are put in their places. -/
theorem defaults_mem_foldr_place (h : LayerName.defaults ∈ env.layerNames) (loaded : List Layer) :
    LayerName.defaults ∈ (loaded.foldr (fun layer env => place true env layer) env).layerNames := by
  induction loaded with
  | nil => exact h
  | cons layer later ih => exact defaults_mem_place ih

/-- Of the layers with one name that are put, one is there in the end. By induction on the layers that were put before: the last one takes
the place of the one that is left, or spares it. -/
theorem exists_mem_foldr_place (hdefaults : hasDefaults = true → LayerName.defaults ∈ env.layerNames) (hmem : layer ∈ loaded)
    (hne : layer.name ≠ LayerName.defaults) : ∃ left ∈ loaded, left.name = layer.name ∧
      left ∈ (loaded.foldr (fun layer env => place hasDefaults env layer) env).layers := by
  induction loaded with
  | nil => cases hmem
  | cons first later ih =>
    rw [List.foldr_cons]
    have hlater : hasDefaults = true →
        LayerName.defaults ∈ (later.foldr (fun layer env => place hasDefaults env layer) env).layerNames := by
      rintro rfl
      exact defaults_mem_foldr_place (hdefaults rfl) later
    rcases List.mem_cons.mp hmem with rfl | hmem
    · exact ⟨layer, List.mem_cons_self, rfl, mem_place_self hlater hne⟩
    · obtain ⟨left, hleft, hname, hthere⟩ := ih hmem
      by_cases hfirst : left.name = first.name
      · exact ⟨first, List.mem_cons_self, hfirst.symm.trans hname, mem_place_self hlater (hfirst ▸ hname ▸ hne)⟩
      · exact ⟨left, List.mem_cons_of_mem _ hleft, hname, spares_of_name_ne hfirst hasDefaults _ hthere⟩

/-- Of the layers of one name that were loaded, one is left. -/
theorem exists_mem_withLoaded (hmem : layer ∈ loaded) (hne : layer.name ≠ LayerName.defaults) :
    ∃ left ∈ loaded, left.name = layer.name ∧ left ∈ (withLoaded env loaded).layers := by
  rw [withLoaded, List.foldl_reverse]
  exact exists_mem_foldr_place Environment.hasLayer_iff.mp hmem hne

/-- Any other layer stays there when that of last resort moves to the end. -/
theorem mem_withDefaultsLast (hmem : layer ∈ env.layers) (hne : layer.name ≠ LayerName.defaults) :
    layer ∈ (withDefaultsLast env).layers := by
  unfold withDefaultsLast
  split
  · rename_i defaults hdefaults
    have hname : defaults.name = LayerName.defaults := by simpa using List.find?_some hdefaults
    exact List.mem_append_left _ (Environment.mem_remove hmem (hname ▸ hne))
  · exact hmem

end Placing

section Runs

variable {discovery : Discovery} {resources : Resources} {env scope : Environment} {plan : SearchPlan} {start finish : Progress}
  {error : ConfigError} {key name location place : String} {value wanted other : Option String}
  {layer another : Layer}

/-! ## The names of profiles -/

/-- The profiles that a list asks for have no white space in their names. -/
theorem hasBlank_of_mem_boundNames (h : name ∈ boundNames scope key value) : hasBlank name = false := by
  unfold boundNames at h
  split at h
  · rename_i set hset
    obtain ⟨list, hparse⟩ := parse_of_boundProfiles hset
    exact (ProfileSet.name_of_parse hparse h).2.2
  · nomatch h

/-- If neither the profiles that are active from the beginning nor those that stand in have white space in their names, no profile that is
processed does. -/
theorem Completed.hasBlank_eq_false (h : Completed discovery resources env plan start finish)
    (hactive : ∀ profile ∈ env.active, hasBlank profile = false) (hdefaults : ∀ profile ∈ env.defaults, hasBlank profile = false)
    (hname : name ∈ finish.processed.names) : hasBlank name = false := by
  rcases h.orderly.entered_mem name (List.mem_append_left _ hname) with hmem | hmem
  · rw [h.attributed.active_eq] at hmem
    rcases exists_of_mem_activeBehind hmem with hstart | ⟨layer, hl, hasked⟩
    · rcases mem_activeAtStart.mp hstart with (hmem | hasked) | hasked
      · exact hactive name hmem
      · exact hasBlank_of_mem_boundNames hasked
      · exact hasBlank_of_mem_boundNames hasked
    · obtain ⟨read, -, earlier, rfl⟩ := h.accounted.bound.exists_layer hl
      exact hasked.elim hasBlank_of_mem_boundNames hasBlank_of_mem_boundNames
  · exact hdefaults name hmem

/-! ## Layers that a search has read -/

/-- A search that failed leaves the layers as they were. -/
theorem layers_of_run_error (h : (discovery.run resources env).result = .error error) :
    (discovery.run resources env).environment.layers = env.layers := by
  rcases run_eq_error h with ⟨hrun, -⟩ | ⟨plan, start, finish, -, hstart, hpasses, hrun⟩
  · rw [hrun]
  · obtain ⟨henvironment, -⟩ := grown_of_passes_error hstart hpasses
    rw [hrun]
    simp only
    rw [henvironment]

/-- A layer that some readings give for a location and a profile, or for none, by a format that gives it the name asked for. -/
def ReadFor (formats : Formats) (resources : Resources) (readings : List Reading) (location : String) (wanted : Option String)
    (layer : Layer) : Prop :=
  ∃ reading ∈ readings, reading.location = location ∧ reading.wanted = wanted ∧ reading.KeepsName formats ∧
    reading.layer? formats resources = some layer

/-- A layer is named for the location and the profile that it was read for. -/
theorem ReadFor.name_eq {formats : Formats} {readings : List Reading} (h : ReadFor formats resources readings location wanted layer) :
    layer.name = layerName location wanted := by
  obtain ⟨reading, -, rfl, rfl, hkeeps, hlayer⟩ := h
  exact Reading.name_of_keepsName hkeeps hlayer

/-- The layers of an itinerary are known by their names, if no profile that is processed has white space in its name. -/
theorem ReadFor.inj {formats : Formats} {processed : List String} (hblank : ∀ name ∈ processed, hasBlank name = false)
    (h : ReadFor formats resources (plan.itinerary processed) location wanted layer)
    (hother : ReadFor formats resources (plan.itinerary processed) place other another) (hname : another.name = layer.name) :
    place = location ∧ other = wanted := by
  have hprofiles : ∀ {location wanted layer}, ReadFor formats resources (plan.itinerary processed) location wanted layer →
      ∀ profile ∈ wanted, hasBlank profile = false := by
    rintro _ _ _ ⟨reading, hreading, rfl, rfl, -, -⟩ profile hprofile
    exact hblank profile (SearchPlan.mem_processed_of_mem_itinerary hreading hprofile)
  rw [h.name_eq, hother.name_eq] at hname
  exact (layerName_inj (hprofiles hother) (hprofiles h)).mp hname

/-- Behind a search that came to its end, one layer is there of those read that have a name other than that of the layer of last resort. -/
theorem Completed.exists_mem_layers (h : Completed discovery resources env plan start finish)
    (hmem : layer ∈ finish.loaded) (hne : layer.name ≠ LayerName.defaults) :
    ∃ left ∈ finish.loaded, left.name = layer.name ∧ left ∈ (discovery.run resources env).environment.layers := by
  rw [h.outcome_eq]
  obtain ⟨left, hleft, hname, hthere⟩ := exists_mem_withLoaded hmem hne
  exact ⟨left, hleft, hname, mem_withDefaultsLast hthere (hname ▸ hne)⟩

end Runs

/-- The name of a layer tells the location it was read from and the profile it was read for, if the profile has no white space in its name.
So let neither the profiles that are active from the beginning nor those that stand in have any. A search that fails leaves the layers as
they were. In one that comes to its end, the layers read for different locations or profiles, by formats that give the name asked for, have
different names, and wherever one is put it leaves the other there. So the layer that has the name of such a one in the end was read for its
location and its profile too, unless it comes from a format that gives other names. -/
theorem identity_of_run (discovery : Discovery) (resources : Resources) (env : Environment) :
    (∀ location place wanted other,
      (∀ profile ∈ wanted, hasBlank profile = false) → (∀ profile ∈ other, hasBlank profile = false) →
      (layerName location wanted = layerName place other ↔ location = place ∧ wanted = other)) ∧
    ((∀ profile ∈ env.active, hasBlank profile = false) → (∀ profile ∈ env.defaults, hasBlank profile = false) →
      (∀ error, (discovery.run resources env).result = .error error →
        (discovery.run resources env).environment.layers = env.layers) ∧
      ∀ found, (discovery.run resources env).result = .ok found →
        ∃ plan, discovery.plan env = .ok plan ∧
          let readings := plan.itinerary found.processed
          Milestone.layers (discovery.run resources env).history = readings.filterMap (·.layer? discovery.formats resources) ∧
          ∀ location wanted layer, ReadFor discovery.formats resources readings location wanted layer →
            (∀ place other another, ReadFor discovery.formats resources readings place other another →
              (place, other) ≠ (location, wanted) → another.name ≠ layer.name ∧ Spares another layer) ∧
            ∃ left ∈ (discovery.run resources env).environment.layers, left.name = layer.name ∧
              (ReadFor discovery.formats resources readings location wanted left ∨
                ∃ reading ∈ readings, ¬reading.KeepsName discovery.formats ∧
                  reading.layer? discovery.formats resources = some left)) := by
  refine ⟨fun location place wanted other => layerName_inj, fun hactive hdefaults => ⟨fun error => layers_of_run_error, ?_⟩⟩
  intro found hfound
  obtain ⟨plan, start, finish, hrun⟩ := run_eq_ok hfound
  obtain ⟨-, hprocessed⟩ := hrun.found_eq hfound
  have hloaded : finish.loaded = (plan.itinerary found.processed).filterMap (·.layer? discovery.formats resources) := by
    rw [hprocessed, ← formats_of_plan hrun.plan_eq]
    exact hrun.followed.loaded
  have hblank : ∀ name ∈ found.processed, hasBlank name = false := by
    rw [hprocessed]
    exact fun name => hrun.hasBlank_eq_false hactive hdefaults
  refine ⟨plan, hrun.plan_eq, by rw [hrun.history, ← hloaded]; rfl, fun location wanted layer hread => ⟨?_, ?_⟩⟩
  · intro place other another hother hne
    have hname : another.name ≠ layer.name := fun hname => hne (Prod.ext_iff.mpr (hread.inj hblank hother hname))
    exact ⟨hname, spares_of_name_ne hname.symm⟩
  · have hmem : layer ∈ finish.loaded := by
      obtain ⟨reading, hreading, -, -, -, hlayer⟩ := hread
      exact hloaded ▸ List.mem_filterMap.mpr ⟨reading, hreading, hlayer⟩
    obtain ⟨left, hleft, hname, hthere⟩ := hrun.exists_mem_layers hmem (hread.name_eq ▸ layerName_ne_defaults location wanted)
    rw [hloaded] at hleft
    obtain ⟨source, hsource, hgives⟩ := List.mem_filterMap.mp hleft
    refine ⟨left, hthere, hname, ?_⟩
    by_cases hkeeps : source.KeepsName discovery.formats
    · obtain ⟨hlocation, hwanted⟩ := hread.inj hblank ⟨source, hsource, rfl, rfl, hkeeps, hgives⟩ hname
      exact .inl ⟨source, hsource, hlocation, hwanted, hkeeps, hgives⟩
    · exact .inr ⟨source, hsource, hkeeps, hgives⟩

/-- The layers of one file for no profile and for its own have different names, and the second one leaves the first one there. -/
theorem identity_of_run_filesForProfiles :
    let location := "classpath:/application-x.yml"
    let readings := SearchPlan.itinerary
      { formats := Formats.standard, locations := ["classpath:/"], names := ["application"] } ["x", "y"]
    ∃ layer another, ReadFor Formats.standard filesForProfiles readings location none layer ∧
      ReadFor Formats.standard filesForProfiles readings location (some "x") another ∧ another.name ≠ layer.name ∧
      Spares another layer := by
  intro location readings
  have hrun : (searchOfRoot.run filesForProfiles {}).result =
      .ok
        { loaded := ["applicationConfig: [classpath:/application.yml]", "applicationConfig: [classpath:/application-x.yml]",
            "applicationConfig: [classpath:/application-x.yml] (profile=x)",
            "applicationConfig: [classpath:/application.yml] (profile=y)",
            "applicationConfig: [classpath:/application-x.yml] (profile=y)",
            "applicationConfig: [classpath:/application-y.yml] (profile=y)"]
          processed := ["x", "y"] } := by decide +kernel
  have hlocations : searchOfRoot.searchLocations {} = .ok ["classpath:/"] := by decide +kernel
  have hnames : searchOfRoot.searchNames {} = .ok ["application"] := by decide +kernel
  obtain ⟨-, hblankless⟩ := identity_of_run searchOfRoot filesForProfiles {}
  obtain ⟨plan, hplan, -, hread⟩ := (hblankless (by decide) (by decide)).2 _ hrun
  obtain ⟨locations, names, hlocations', hnames', rfl⟩ := plan_eq_ok hplan
  cases hlocations.symm.trans hlocations'
  cases hnames.symm.trans hnames'
  have hreading : ∀ reading ∈ readings, (reading.layer? Formats.standard filesForProfiles).isSome = true →
      ∃ layer, ReadFor Formats.standard filesForProfiles readings reading.location reading.wanted layer := by
    intro reading hmem hsome
    obtain ⟨layer, hlayer⟩ := Option.isSome_iff_exists.mp hsome
    exact ⟨layer, reading, hmem, rfl, rfl, Reading.keepsName_of_namesAsAsked Formats.standard_namesAsAsked reading, hlayer⟩
  obtain ⟨layer, hlayer⟩ := hreading { location, extension := "yml", wanted := none } (by decide +kernel) (by decide +kernel)
  obtain ⟨another, hanother⟩ :=
    hreading { location, extension := "yml", wanted := some "x", again := true } (by decide +kernel) (by decide +kernel)
  exact ⟨layer, another, hlayer, hanother, (hread _ _ _ hlayer).1 _ _ _ hanother (by decide)⟩

/-- With white space in the name of a profile, a location may look like another one with a profile behind it. -/
example : layerName "a" (some "x] (profile=y") = layerName "a] (profile=x" (some "y") := by decide

end Discovery

end Ignition
