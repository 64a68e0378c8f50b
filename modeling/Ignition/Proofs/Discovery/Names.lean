import Ignition.Proofs.Discovery.Activation
import Ignition.Proofs.Discovery.Loaded
import Mathlib.Data.List.Sublists
import Mathlib.Data.Finite.Prod
import Mathlib.Data.Set.Finite.Lattice

/-!
# The names that a search can meet

A text in one of the standard formats makes only finitely many layers, up to their names: a file in YAML has a layer for each choice of
its documents, and a file in another format at most one. What a layer asks for depends on its values and on the layers of the environment
that it does not take the place of. So the layers that finitely many texts make ask for finitely many profiles (`finite_asked`), however
many layers a search reads.
-/

namespace Ignition

/-! ## What a text can hold -/

/-- What the layers hold that a format reads from some text. -/
def Format.sources (format : Format) (contents : String) : Set Source :=
  {source | ∃ name resource profile layer, resource.contents = contents ∧
    format.read name resource profile = .ok (some layer) ∧ layer.source = source}

/-- Formats that read layers of entries from each text, which hold finitely many things. -/
def Formats.Limited (formats : Formats) : Prop :=
  ∀ format ∈ formats.formats, ∀ contents,
    (format.sources contents).Finite ∧ ∀ source ∈ format.sources contents, ∃ entries, source = .entries entries

section Formats

variable {name contents : String} {resource : Resource} {entries : Entries} {layer : Layer} {format : Format}

theorem Format.source_of_layerOf? (h : layerOf? name resource entries = some layer) : layer.source = .entries entries.collapse := by
  unfold layerOf? at h
  split at h
  · cases h
  · cases h
    rfl

/-- A format reads finitely many things from a text if it has finitely many lists of entries to choose from. -/
theorem Format.finite_sources (choices : List Entries)
    (h : ∀ name resource profile layer, resource.contents = contents → format.read name resource profile = .ok (some layer) →
      ∃ entries ∈ choices, layerOf? name resource entries = some layer) :
    (format.sources contents).Finite ∧ ∀ source ∈ format.sources contents, ∃ entries, source = .entries entries := by
  have hsource : ∀ source ∈ format.sources contents, source ∈ choices.map fun entries => Source.entries entries.collapse := by
    rintro source ⟨name, resource, profile, layer, hcontents, hread, rfl⟩
    obtain ⟨entries, he, hlayer⟩ := h name resource profile layer hcontents hread
    rw [Format.source_of_layerOf? hlayer]
    exact List.mem_map.mpr ⟨entries, he, rfl⟩
  refine ⟨(List.finite_toSet _).subset hsource, fun source hs => ?_⟩
  obtain ⟨entries, -, rfl⟩ := List.mem_map.mp (hsource source hs)
  exact ⟨entries.collapse, rfl⟩

/-- The standard formats read finitely many things from each text. -/
theorem Formats.standard_limited : Formats.standard.Limited := by
  intro format hformat contents
  simp only [standard, List.mem_cons, List.not_mem_nil, or_false] at hformat
  rcases hformat with rfl | rfl | rfl
  · refine Format.finite_sources (Properties.parse contents).toOption.toList ?_
    rintro name resource profile layer rfl hread
    simp only [Format.properties] at hread
    split at hread
    · cases hread
    · split at hread
      · rename_i entries hparse
        exact ⟨entries, by simp [hparse, Except.toOption], Except.ok.inj hread⟩
      · cases hread
  · -- The documents that apply are some of all documents.
    refine Format.finite_sources ((Yaml.parse contents).toOption.toList.flatMap fun documents =>
      documents.sublists.map List.flatten) ?_
    rintro name resource profile layer rfl hread
    simp only [Format.yaml] at hread
    split at hread
    · rename_i documents hparse
      refine ⟨Yaml.selected profile documents, ?_, Except.ok.inj hread⟩
      rw [List.mem_flatMap]
      refine ⟨documents, by simp [hparse, Except.toOption], ?_⟩
      exact List.mem_map_of_mem (List.mem_sublists.mpr List.filter_sublist)
    · cases hread
  · refine Format.finite_sources (Toml.parse contents).toOption.toList ?_
    rintro name resource profile layer rfl hread
    simp only [Format.toml] at hread
    split at hread
    · cases hread
    · split at hread
      · rename_i entries hparse
        exact ⟨entries, by simp [hparse, Except.toOption], Except.ok.inj hread⟩
      · cases hread

end Formats

/-- A text that is found somewhere. -/
def Resources.Holds (resources : Resources) (text : String) : Prop :=
  ∃ location resource, resources location = .ok (some resource) ∧ resource.contents = text

/-- Resources held in memory are finitely many texts. -/
theorem Resources.finite_holds (texts : List (String × String)) : {text | (Resources.ofList texts).Holds text}.Finite := by
  refine (List.finite_toSet (texts.map (·.2))).subset ?_
  rintro text ⟨location, resource, hfound, rfl⟩
  obtain ⟨⟨other, contents⟩, hfind, rfl⟩ := Option.map_eq_some_iff.mp (Except.ok.inj hfound)
  exact List.mem_map.mpr ⟨(other, contents), List.mem_of_find?_eq_some hfind, rfl⟩

/-! ## What layers ask for -/

/-- A layer without a name that holds something. -/
def Layer.ofSource (source : Source) : Layer :=
  { name := "", source }

/-- The environment with what a layer holds ahead of some layers. -/
def Source.scope (source : Source) (layers : List Layer) (env : Environment) : Environment :=
  { env with layers := Layer.ofSource source :: layers }

section Scope

variable {env : Environment} {layer : Layer}

/-- A layer goes ahead of the layers of an environment that it does not take the place of, and its name does not matter then. -/
theorem Layer.sources_addFirst :
    (env.addFirst layer).sources = (layer.source.scope (env.remove layer.name).layers env).sources := rfl

/-- A steady layer ahead of a steady environment makes a steady one. -/
theorem Environment.Steady.addFirst (h : env.Steady) (hlayer : layer.Steady) : (env.addFirst layer).Steady := by
  refine ⟨fun other ho => ?_⟩
  rcases List.mem_cons.mp ho with rfl | ho
  · exact hlayer
  · exact h.layer_steady other (List.mem_of_mem_eraseP ho)

/-- In a steady environment the lists of a layer are expanded with the layer ahead, however many layers are read before. -/
theorem scopeOf_of_steady (h : env.Steady) (hlayer : layer.Steady) (earlier : Nat) :
    Progress.scopeOf env layer earlier = env.addFirst layer :=
  have := h.addFirst hlayer
  Environment.toward_eq_self

/-- What a layer asks for by the list of a key depends on what it holds and on the layers it goes ahead of. -/
theorem Layer.boundNames_addFirst (key : String) : boundNames (env.addFirst layer) key (layer.get? key) =
    boundNames (layer.source.scope (env.remove layer.name).layers env) key ((Layer.ofSource layer.source).get? key) := by
  rw [boundNames, boundNames, boundProfiles_congr Layer.sources_addFirst rfl]
  rfl

end Scope

/-! ## What can be asked for -/

namespace SearchPlan

/-- Which layers a plan gives depends on its formats. -/
theorem Gives.of_formats {plan plan' : SearchPlan} {resources : Resources} {layer : Layer} (h : plan.Gives resources layer)
    (hformats : plan.formats = plan'.formats) : plan'.Gives resources layer := by
  cases h with
  | read hformat hfound hread => exact .read (hformats ▸ hformat) hfound hread

/-- The profiles that layers ask for which a search may read. -/
def asked (plan : SearchPlan) (resources : Resources) (env : Environment) : Set String :=
  {name | ∃ layer earlier, plan.Gives resources layer ∧ (name ∈ layer.activated env earlier ∨ name ∈ layer.included env earlier)}

/-- The profiles that a search may meet: those that stand in, those that are active at its beginning, and those that a layer asks for. -/
def mayMeet (plan : SearchPlan) (resources : Resources) (env : Environment) : Set String :=
  {name | name ∈ env.defaults ∨ name ∈ Discovery.activeAtStart env} ∪ plan.asked resources env

section Finite

variable {plan : SearchPlan} {resources : Resources} {env : Environment}

/-- What the layers hold that a search may read, each with the layers of the environment that it goes ahead of. -/
def scopes (plan : SearchPlan) (resources : Resources) (env : Environment) : Set (Source × List Layer) :=
  {scope | ∃ layer, plan.Gives resources layer ∧ scope = (layer.source, (env.remove layer.name).layers)}

/-- The layers made of finitely many texts hold finitely many things, and go ahead of some of the layers of the environment. -/
theorem finite_scopes (hformats : plan.formats.Limited) (htexts : {text | resources.Holds text}.Finite) :
    (plan.scopes resources env).Finite := by
  have hsources : (⋃ text ∈ {text | resources.Holds text}, ⋃ format ∈ {format | format ∈ plan.formats.formats},
      format.sources text).Finite :=
    htexts.biUnion fun text _ => (List.finite_toSet plan.formats.formats).biUnion fun format hformat => (hformats format hformat text).1
  refine (hsources.prod (List.finite_toSet env.layers.sublists)).subset ?_
  rintro scope ⟨_, ⟨hformat, hfound, hread⟩, rfl⟩
  refine ⟨?_, List.mem_sublists.mpr List.eraseP_sublist⟩
  simp only [Set.mem_iUnion]
  exact ⟨_, ⟨_, _, hfound, rfl⟩, _, List.mem_of_find?_eq_some hformat, _, _, _, _, rfl, hread, rfl⟩

/-- The layers that a search may read from entries draw nothing. -/
theorem steady_of_gives (hformats : plan.formats.Limited) {layer : Layer} (h : plan.Gives resources layer) : layer.Steady := by
  obtain ⟨entries, hsource⟩ : ∃ entries, layer.source = .entries entries := by
    obtain ⟨hformat, -, hread⟩ := h
    exact (hformats _ (List.mem_of_find?_eq_some hformat) _).2 _ ⟨_, _, _, _, rfl, hread, rfl⟩
  exact fun draws hdraws => nomatch hdraws.symm.trans hsource

/-- In a steady environment finitely many texts ask for finitely many profiles. -/
theorem finite_asked (hsteady : env.Steady) (hformats : plan.formats.Limited) (htexts : {text | resources.Holds text}.Finite) :
    (plan.asked resources env).Finite := by
  have hasked : (⋃ scope ∈ plan.scopes resources env, ⋃ key ∈ {key | key ∈ [Key.activeProfiles, Key.includedProfiles]},
      {name | name ∈ boundNames (scope.1.scope scope.2 env) key ((Layer.ofSource scope.1).get? key)}).Finite :=
    (finite_scopes hformats htexts).biUnion fun _ _ => (List.finite_toSet _).biUnion fun _ _ => List.finite_toSet _
  refine hasked.subset ?_
  rintro name ⟨layer, earlier, hgives, hname⟩
  have hscope := scopeOf_of_steady hsteady (steady_of_gives hformats hgives) earlier
  simp only [Set.mem_iUnion]
  refine ⟨_, ⟨layer, hgives, rfl⟩, ?_⟩
  rcases hname with hname | hname
  · rw [Layer.activated, hscope, Layer.boundNames_addFirst] at hname
    exact ⟨Key.activeProfiles, List.mem_cons_self, hname⟩
  · rw [Layer.included, hscope, Layer.boundNames_addFirst] at hname
    exact ⟨Key.includedProfiles, List.mem_cons_of_mem _ List.mem_cons_self, hname⟩

/-- In a steady environment a search may meet finitely many profiles. -/
theorem finite_mayMeet (hsteady : env.Steady) (hformats : plan.formats.Limited) (htexts : {text | resources.Holds text}.Finite) :
    (plan.mayMeet resources env).Finite :=
  ((List.finite_toSet env.defaults).union (List.finite_toSet _)).union (finite_asked hsteady hformats htexts)

end Finite

end SearchPlan

namespace Discovery

section MayMeet

variable {env : Environment} {plan : SearchPlan} {resources : Resources} {current : Option String} {p : Progress} {name : String}

/-- A search has only active profiles that it may meet. -/
theorem Attributed.mem_mayMeet (h : Attributed env current p) (hsourced : Sourced env plan resources current p)
    (hname : name ∈ p.environment.active) : name ∈ plan.mayMeet resources env := by
  rw [h.active_eq] at hname
  rcases exists_of_mem_activeBehind hname with hname | ⟨layer, hl, hname⟩
  · exact Or.inl (Or.inr hname)
  · obtain ⟨read, hread, earlier, rfl⟩ := h.bound.exists_layer hl
    exact Or.inr ⟨read, earlier, hsourced.gives read hread, hname⟩

/-- The profiles processed are no more than those that a search may meet. -/
theorem Attributed.processed_le (h : Attributed env none p) (hsourced : Sourced env plan resources none p)
    (hfinite : (plan.mayMeet resources env).Finite) : p.processed.names.length ≤ hfinite.toFinset.card := by
  have hentered : entered none p = p.processed.names := by simp [entered]
  have hnodup := h.nodup
  have hmem := h.entered_mem
  rw [hentered] at hnodup hmem
  rw [← List.toFinset_card_of_nodup hnodup]
  refine Finset.card_le_card fun name hname => ?_
  rw [List.mem_toFinset] at hname
  rw [Set.Finite.mem_toFinset]
  exact (hmem name hname).elim (h.mem_mayMeet hsourced) fun hdefault => Or.inl (Or.inl hdefault)

end MayMeet

end Discovery

end Ignition
