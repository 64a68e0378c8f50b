import Ignition.Proofs.Config.Stack
import Ignition.Proofs.Discovery.Loaded

/-!
# Where the layers go that a search has read

The layers that a search has read come, the last one first, right ahead of the layer of last resort, which moves to the end of the stack
(`layers_of_run`). Layers are known by their names, so a layer that is read more than once is put into the stack more than once, each
time in the place of the time before. The layers are put in from the last one read to the first one, so it is the first reading that
stays: a layer is ahead of another exactly if it was first read after the other was first read (`ahead_iff_of_run`).
-/

namespace Ignition

namespace Discovery

open Layer (without)

/-! ## Layers that are put into an environment -/

/-- The stack that layers make which are put, the last one first, each behind those before it: of layers with one name, the first one
of the list is left. -/
def settled : List Layer → List Layer
  | [] => []
  | layer :: later => without [layer.name] (settled later) ++ [layer]

section Placing

variable {env : Environment} {layer : Layer} {loaded ahead behind : List Layer}

/-- Nothing settles but what was loaded. -/
theorem mem_of_mem_settled (h : layer ∈ settled loaded) : layer ∈ loaded := by
  induction loaded with
  | nil => exact h
  | cons first later ih =>
    rw [settled, List.mem_append, List.mem_singleton] at h
    rcases h with h | rfl
    · exact List.mem_cons_of_mem _ (ih (Layer.mem_without.mp h).1)
    · exact List.mem_cons_self

/-- Layers with distinct names are all left, the last one first. -/
theorem settled_eq_reverse (h : (loaded.map (·.name)).Nodup) : settled loaded = loaded.reverse := by
  induction loaded with
  | nil => rfl
  | cons first later ih =>
    rw [List.map_cons, List.nodup_cons] at h
    have hothers : ∀ layer ∈ later.reverse, layer.name ∉ [first.name] := by
      intro layer hl he
      exact h.1 (List.mem_singleton.mp he ▸ List.mem_map_of_mem (List.mem_reverse.mp hl))
    rw [settled, ih h.2, Layer.without_eq_self hothers, List.reverse_cons]

/-- A layer that is placed comes right ahead of the layers that begin with the one of last resort. -/
theorem layers_place (hnodup : env.layerNames.Nodup) (hlayers : env.layers = ahead ++ behind)
    (hbehind : ∀ found ∈ behind.head?, found.name = LayerName.defaults) (hne : layer.name ≠ LayerName.defaults) :
    (place (!behind.isEmpty) env layer).layers =
      without [layer.name] ahead ++ layer :: without [layer.name] behind := by
  cases behind with
  | nil =>
    rw [List.append_nil] at hlayers
    rw [List.isEmpty_nil, Bool.not_true, place, if_neg Bool.false_ne_true, Environment.layers_addLast hnodup, hlayers]
    rfl
  | cons found rest =>
    have hfound : found.name = LayerName.defaults := hbehind found rfl
    have hadd := Environment.layers_addBefore? hnodup hlayers (hfound ▸ hne)
    rw [hfound] at hadd
    rw [List.isEmpty_cons, Bool.not_false, place, if_pos rfl, hadd,
      Layer.without_cons_of_notMem (by simpa [hfound] using hne.symm)]
    rfl

/-- Placing layers, the last one first, takes away the layers of their names and puts what is left of them ahead of the layers that begin
with the one of last resort. The layer of last resort is never taken away, so they still begin with it. -/
theorem layers_foldr_place (hnodup : env.layerNames.Nodup) (hlayers : env.layers = ahead ++ behind)
    (hbehind : ∀ found ∈ behind.head?, found.name = LayerName.defaults)
    (hloaded : ∀ layer ∈ loaded, layer.name ≠ LayerName.defaults) :
    (loaded.foldr (fun layer env => place (!behind.isEmpty) env layer) env).layerNames.Nodup ∧
      (loaded.foldr (fun layer env => place (!behind.isEmpty) env layer) env).layers =
        without (loaded.map (·.name)) ahead ++ settled loaded ++ without (loaded.map (·.name)) behind := by
  induction loaded with
  | nil => exact ⟨hnodup, by simpa [settled] using hlayers⟩
  | cons layer later ih =>
    obtain ⟨hnodup', hlayers'⟩ := ih fun other ho => hloaded other (List.mem_cons_of_mem _ ho)
    have hhead : (without (later.map (·.name)) behind).head? = behind.head? := by
      refine Layer.head?_without fun found hf => ?_
      rw [hbehind found hf]
      simpa using fun other ho => hloaded other (List.mem_cons_of_mem _ ho)
    have hempty : (without (later.map (·.name)) behind).isEmpty = behind.isEmpty := by
      rw [Bool.eq_iff_iff, List.isEmpty_iff, List.isEmpty_iff, ← List.head?_eq_none_iff, hhead, List.head?_eq_none_iff]
    have hplace := layers_place hnodup' hlayers' (by rwa [hhead]) (hloaded layer List.mem_cons_self)
    rw [hempty] at hplace
    rw [List.foldr_cons]
    refine ⟨?_, ?_⟩
    · rw [Environment.layerNames, hplace]
      rw [Environment.layerNames, hlayers'] at hnodup'
      exact Layer.nodup_names_insert hnodup'
    · rw [hplace, Layer.without_append, Layer.without_without, Layer.without_without, settled]
      simp

/-- Where there is no layer of last resort, none comes to the end. -/
theorem withDefaultsLast_eq_self (h : ∀ layer ∈ env.layers, layer.name ≠ LayerName.defaults) : withDefaultsLast env = env := by
  have hnone : env.layer? LayerName.defaults = none := List.find?_eq_none.mpr (by simpa using h)
  rw [withDefaultsLast, hnone]

/-- The layer of last resort ends up behind all others, which stay as they are. -/
theorem layers_withDefaultsLast {found : Layer} (hnodup : env.layerNames.Nodup) (hlayers : env.layers = ahead ++ found :: behind)
    (hfound : found.name = LayerName.defaults) : (withDefaultsLast env).layers = ahead ++ behind ++ [found] := by
  obtain ⟨hahead, hbehind⟩ : (∀ layer ∈ ahead, layer.name ≠ found.name) ∧ ∀ layer ∈ behind, layer.name ≠ found.name := by
    rw [Environment.layerNames, hlayers] at hnodup
    exact Layer.name_ne_of_nodup hnodup
  have hlayer : env.layer? LayerName.defaults = some found := hfound ▸ Environment.layer?_eq_some hlayers hahead
  rw [withDefaultsLast, hlayer]
  simp only [Environment.layers_addLast hnodup, hlayers, Layer.without_append]
  rw [Layer.without_cons_of_mem List.mem_cons_self, Layer.without_eq_self (by simpa using hahead),
    Layer.without_eq_self (by simpa using hbehind)]

/-- The stack of an environment in which the layers read have come to their place: what is left of them is behind the layers that were
ahead of the layer of last resort and ahead of those that were behind it, and that layer is last. -/
theorem layers_settled (hnodup : env.layerNames.Nodup) (hloaded : ∀ layer ∈ loaded, layer.name ≠ LayerName.defaults) :
    (withDefaultsLast (withLoaded env loaded)).layers =
      without (loaded.map (·.name)) (env.layersAhead LayerName.defaults) ++ settled loaded ++
        without (loaded.map (·.name)) (env.layersBehind LayerName.defaults) ++
        (env.layer? LayerName.defaults).toList := by
  rw [withLoaded, List.foldl_reverse]
  rcases env.layers_cases LayerName.defaults with
    ⟨hnone, hahead, hbehind, hname⟩ | ⟨found, hsome, hfound, hlayers, hahead⟩
  · have hhas : env.hasLayer LayerName.defaults = !([] : List Layer).isEmpty := by
      simpa [Environment.hasLayer] using hname
    obtain ⟨-, hlayers'⟩ := layers_foldr_place hnodup (List.append_nil _).symm (by simp) hloaded
    rw [hhas, withDefaultsLast_eq_self, hlayers', hnone, hahead, hbehind]
    · simp [without]
    · rw [hlayers']
      intro layer hl
      rw [List.mem_append, List.mem_append] at hl
      rcases hl with (hl | hl) | hl
      · exact hname layer (Layer.mem_without.mp hl).1
      · exact hloaded layer (mem_of_mem_settled hl)
      · cases (Layer.mem_without.mp hl).1
  · have hhas : env.hasLayer LayerName.defaults = !(found :: env.layersBehind LayerName.defaults).isEmpty := by
      rw [← hfound, List.isEmpty_cons, Bool.not_false, Environment.hasLayer_iff, Environment.layerNames, hlayers]
      simp
    have hkept : found.name ∉ loaded.map (·.name) := by
      simpa [hfound] using hloaded
    obtain ⟨hnodup', hlayers'⟩ := layers_foldr_place hnodup hlayers (by simpa using hfound) hloaded
    rw [Layer.without_cons_of_notMem hkept] at hlayers'
    rw [hhas, layers_withDefaultsLast hnodup' hlayers' hfound, hsome]
    rfl

end Placing

section Names

variable {loaded : List Layer} {name other : String}

theorem names_settled_cons (layer : Layer) : (settled (layer :: loaded)).map (·.name) =
    ((settled loaded).map (·.name)).filter (!List.contains [layer.name] ·) ++ [layer.name] := by
  rw [settled, List.map_append, Layer.names_without]
  rfl

/-- Of each name one layer is left. -/
theorem mem_names_settled : name ∈ (settled loaded).map (·.name) ↔ name ∈ loaded.map (·.name) := by
  induction loaded with
  | nil => rfl
  | cons layer later ih =>
    rw [names_settled_cons, List.mem_append, List.mem_filter, ih, List.mem_singleton, List.map_cons, List.mem_cons]
    by_cases h : name = layer.name <;> simp [h]

/-- Elements that a filter keeps are in the same order behind it. -/
theorem sublist_filter_iff {α : Type} {p : α → Bool} {few l : List α} (h : ∀ a ∈ few, p a = true) :
    few.Sublist (l.filter p) ↔ few.Sublist l := by
  refine ⟨fun hs => hs.trans List.filter_sublist, fun hs => ?_⟩
  have hfiltered := hs.filter p
  rwa [List.filter_eq_self.mpr h] at hfiltered

/-- An element at the end is behind others only. -/
theorem pair_sublist_concat_iff {α : Type} {a b c : α} {l : List α} (h : b ≠ c) :
    [a, b].Sublist (l ++ [c]) ↔ [a, b].Sublist l := by
  have hreverse : [a, b].Sublist l ↔ [b, a].Sublist l.reverse := List.reverse_sublist.symm
  rw [hreverse, ← List.reverse_sublist, List.reverse_append]
  refine ⟨fun hs => ?_, fun hs => hs.trans (List.sublist_cons_self c _)⟩
  rcases List.sublist_cons_iff.mp hs with hs | ⟨rest, he, -⟩
  · exact hs
  · exact absurd (List.head_eq_of_cons_eq he) h

/-- Of the layers that are left, one is ahead of another exactly if its name is first in the list after the other name is. -/
theorem sublist_names_settled_iff (hne : name ≠ other) (hname : name ∈ loaded.map (·.name))
    (hother : other ∈ loaded.map (·.name)) : [name, other].Sublist ((settled loaded).map (·.name)) ↔
      (loaded.map (·.name)).idxOf other < (loaded.map (·.name)).idxOf name := by
  induction loaded with
  | nil => cases hname
  | cons layer later ih =>
    rw [List.map_cons, List.mem_cons] at hname hother
    rw [names_settled_cons, List.map_cons]
    by_cases ho : other = layer.name
    · -- The first layer of the list ends up behind all others.
      subst ho
      have hmem : name ∈ (settled later).map (·.name) := mem_names_settled.mpr (hname.resolve_left hne)
      have hahead : [name].Sublist (((settled later).map (·.name)).filter (!List.contains [layer.name] ·)) :=
        List.singleton_sublist.mpr (List.mem_filter.mpr ⟨hmem, by simpa using hne⟩)
      rw [List.idxOf_cons_self, List.idxOf_cons_ne _ hne.symm]
      exact ⟨fun _ => Nat.succ_pos _, fun _ => hahead.append (List.Sublist.refl [layer.name])⟩
    · rw [pair_sublist_concat_iff ho]
      by_cases hn : name = layer.name
      · subst hn
        rw [List.idxOf_cons_self]
        refine ⟨fun hs => ?_, fun hlt => absurd hlt (Nat.not_lt_zero _)⟩
        have hmem := (List.mem_filter.mp (hs.subset List.mem_cons_self)).2
        simp at hmem
      · rw [sublist_filter_iff (by simp [hn, ho]), ih (hname.resolve_left hn) (hother.resolve_left ho),
          List.idxOf_cons_ne _ (Ne.symm ho), List.idxOf_cons_ne _ (Ne.symm hn), Nat.succ_lt_succ_iff]

end Names

/-! ## The stack behind a search -/

section Completed

variable {discovery : Discovery} {resources : Resources} {env : Environment} {plan : SearchPlan} {start finish : Progress}

/-- The stack behind a search that came to its end. -/
theorem Completed.layers (h : Completed discovery resources env plan start finish) (hnodup : env.layerNames.Nodup)
    (hformats : discovery.formats.NamesAsAsked) : (discovery.run resources env).environment.layers =
      without (finish.loaded.map (·.name)) (env.layersAhead LayerName.defaults) ++ settled finish.loaded ++
        without (finish.loaded.map (·.name)) (env.layersBehind LayerName.defaults) ++
        (env.layer? LayerName.defaults).toList := by
  have hlayers : finish.environment.layers = env.layers := by rw [h.orderly.environment]
  have hahead : finish.environment.layersAhead LayerName.defaults = env.layersAhead LayerName.defaults := by
    rw [Environment.layersAhead, hlayers, Environment.layersAhead]
  have hbehind : finish.environment.layersBehind LayerName.defaults = env.layersBehind LayerName.defaults := by
    rw [Environment.layersBehind, hlayers, Environment.layersBehind]
  have hlayer : finish.environment.layer? LayerName.defaults = env.layer? LayerName.defaults := by
    rw [Environment.layer?, hlayers, Environment.layer?]
  have hnodup' : finish.environment.layerNames.Nodup := by
    rw [Environment.layerNames, hlayers]
    exact hnodup
  rw [h.outcome_eq, ← hahead, ← hbehind, ← hlayer]
  exact layers_settled hnodup' (h.name_ne_defaults hformats)

/-- Of the layers in the stack behind a search, those with the name of a layer read are what is left of the layers read. -/
theorem Completed.filter_layerNames (h : Completed discovery resources env plan start finish) (hnodup : env.layerNames.Nodup)
    (hformats : discovery.formats.NamesAsAsked) :
    (discovery.run resources env).environment.layerNames.filter ((finish.loaded.map (·.name)).contains ·) =
      (settled finish.loaded).map (·.name) := by
  have hothers : ∀ layers, ((without (finish.loaded.map (·.name)) layers).map (·.name)).filter
      ((finish.loaded.map (·.name)).contains ·) = [] := by
    intro layers
    rw [Layer.names_without, List.filter_filter, List.filter_eq_nil_iff]
    simp
  have hdefaults : ((env.layer? LayerName.defaults).toList.map (·.name)).filter
      ((finish.loaded.map (·.name)).contains ·) = [] := by
    cases hlayer : env.layer? LayerName.defaults with
    | none => rfl
    | some layer =>
      have hlast : layer.name = LayerName.defaults := by simpa using List.find?_some hlayer
      simpa [hlast] using h.name_ne_defaults hformats
  have hread : ((settled finish.loaded).map (·.name)).filter ((finish.loaded.map (·.name)).contains ·) =
      (settled finish.loaded).map (·.name) := by
    rw [List.filter_eq_self]
    intro read hr
    exact List.contains_iff_mem.mpr (mem_names_settled.mp hr)
  rw [Environment.layerNames, h.layers hnodup hformats]
  simp only [List.map_append, List.filter_append, hothers, hdefaults, hread, List.nil_append, List.append_nil]

/-- Of two layers read, the one is ahead in the stack that was first read after the other was first read. -/
theorem Completed.ahead_iff (h : Completed discovery resources env plan start finish) (hnodup : env.layerNames.Nodup)
    (hformats : discovery.formats.NamesAsAsked) {name other : String} (hname : name ∈ finish.loaded.map (·.name))
    (hother : other ∈ finish.loaded.map (·.name)) (hne : name ≠ other) :
    (discovery.run resources env).environment.Ahead name other ↔
      (finish.loaded.map (·.name)).idxOf other < (finish.loaded.map (·.name)).idxOf name := by
  have hfew : ∀ few ∈ [name, other], (finish.loaded.map (·.name)).contains few = true := by
    intro few hf
    rw [List.mem_cons, List.mem_singleton] at hf
    rcases hf with rfl | rfl
    · exact List.contains_iff_mem.mpr hname
    · exact List.contains_iff_mem.mpr hother
  rw [Environment.Ahead, ← sublist_filter_iff hfew, h.filter_layerNames hnodup hformats]
  exact sublist_names_settled_iff hne hname hother

end Completed

/-- In an environment whose layers have distinct names, a search that came to its end and read layers with distinct names leaves this
stack: the layers that were ahead of the layer of last resort, the layers read, the last one first, the layers that were behind the
layer of last resort, and that layer itself. Only layers of names that were read are missing. -/
theorem layers_of_run (discovery : Discovery) (resources : Resources) (env : Environment) (found : Discovered)
    (hnodup : env.layerNames.Nodup) (hformats : discovery.formats.NamesAsAsked)
    (h : (discovery.run resources env).result = .ok found) (hloaded : found.loaded.Nodup) :
    (discovery.run resources env).environment.layers =
        without found.loaded (env.layersAhead LayerName.defaults) ++
          (Milestone.layers (discovery.run resources env).history).reverse ++
          without found.loaded (env.layersBehind LayerName.defaults) ++ (env.layer? LayerName.defaults).toList ∧
      (Milestone.layers (discovery.run resources env).history).map (·.name) = found.loaded := by
  obtain ⟨plan, start, finish, hrun⟩ := run_eq_ok h
  obtain ⟨hfound, -⟩ := hrun.found_eq h
  rw [hfound] at hloaded ⊢
  rw [hrun.layers hnodup hformats, settled_eq_reverse hloaded, hrun.history]
  exact ⟨rfl, rfl⟩

/-- An environment with a layer on either side of the layer of last resort, one of which has the name of a file. -/
def environmentOfRoot : Environment where
  layers := [Layer.ofEntries "early" [], Layer.ofEntries LayerName.defaults [("a", "default")],
    Layer.ofEntries "applicationConfig: [classpath:/application.properties]" [("a", "old")], Layer.ofEntries "late" []]

/-- The files of the root go between the layers ahead of the layer of last resort and those behind it. -/
theorem layers_of_run_environmentOfRoot :
    let found : Discovered :=
      { loaded := ["applicationConfig: [classpath:/application.properties]",
          "applicationConfig: [classpath:/application-a.properties]",
          "applicationConfig: [classpath:/application-b.properties]"]
        processed := ["a", "b", "default"] }
    environmentOfRoot.layerNames.Nodup ∧ searchOfRoot.formats.NamesAsAsked ∧
      (searchOfRoot.run includingFiles environmentOfRoot).result = .ok found ∧ found.loaded.Nodup ∧
      (searchOfRoot.run includingFiles environmentOfRoot).environment.layers =
        without found.loaded (environmentOfRoot.layersAhead LayerName.defaults) ++
          (Milestone.layers (searchOfRoot.run includingFiles environmentOfRoot).history).reverse ++
          without found.loaded (environmentOfRoot.layersBehind LayerName.defaults) ++
          (environmentOfRoot.layer? LayerName.defaults).toList := by
  intro found
  have hnodup : environmentOfRoot.layerNames.Nodup := by decide
  have hrun : (searchOfRoot.run includingFiles environmentOfRoot).result = .ok found := by decide +kernel
  have hloaded : found.loaded.Nodup := by decide
  have hlayers := layers_of_run _ _ _ _ hnodup Formats.standard_namesAsAsked hrun hloaded
  exact ⟨hnodup, Formats.standard_namesAsAsked, hrun, hloaded, hlayers.1⟩

/-! ## The first reading counts -/

/-- In an environment whose layers have distinct names, a search with the standard formats that came to its end leaves, of two layers
that it read, the one ahead that was first read after the other was first read. -/
theorem ahead_iff_of_run (discovery : Discovery) (resources : Resources) (env : Environment) (found : Discovered)
    (name other : String) (hnodup : env.layerNames.Nodup) (hstandard : discovery.formats = Formats.standard)
    (h : (discovery.run resources env).result = .ok found) (hname : name ∈ found.loaded) (hother : other ∈ found.loaded)
    (hne : name ≠ other) : (discovery.run resources env).environment.Ahead name other ↔
      found.loaded.idxOf other < found.loaded.idxOf name := by
  obtain ⟨plan, start, finish, hrun⟩ := run_eq_ok h
  obtain ⟨hfound, -⟩ := hrun.found_eq h
  rw [hfound] at hname hother ⊢
  exact hrun.ahead_iff hnodup (hstandard ▸ Formats.standard_namesAsAsked) hname hother hne

/-- A search for two base names, one of them given twice. -/
def searchWithRepeatedName : Discovery := { locations := ["classpath:/"], names := ["app", "svc", "app"] }

/-- A file for either base name. -/
def twoFiles : Resources :=
  Resources.ofList [("classpath:/app.properties", "x=app"), ("classpath:/svc.properties", "x=svc")]

/-- A file that is found first and once more at the end is behind the one that is found between. -/
theorem ahead_iff_of_run_twoFiles :
    let found : Discovered :=
      { loaded := ["applicationConfig: [classpath:/app.properties]", "applicationConfig: [classpath:/svc.properties]",
          "applicationConfig: [classpath:/app.properties]"]
        processed := ["default"] }
    ({} : Environment).layerNames.Nodup ∧ searchWithRepeatedName.formats = Formats.standard ∧
      (searchWithRepeatedName.run twoFiles {}).result = .ok found ∧
      ((searchWithRepeatedName.run twoFiles {}).environment.Ahead "applicationConfig: [classpath:/svc.properties]"
          "applicationConfig: [classpath:/app.properties]" ↔
        found.loaded.idxOf "applicationConfig: [classpath:/app.properties]" <
          found.loaded.idxOf "applicationConfig: [classpath:/svc.properties]") := by
  intro found
  have hrun : (searchWithRepeatedName.run twoFiles {}).result = .ok found := by decide +kernel
  have hnodup : ({} : Environment).layerNames.Nodup := by decide
  exact ⟨hnodup, rfl, hrun,
    ahead_iff_of_run _ _ _ _ _ _ hnodup rfl hrun (by decide) (by decide) (by decide)⟩

/-- The file that is read last, after the other one, is behind it, because it was also read before the other one. -/
theorem last_read_behind_twoFiles :
    (searchWithRepeatedName.run twoFiles {}).result =
        .ok { loaded := ["applicationConfig: [classpath:/app.properties]", "applicationConfig: [classpath:/svc.properties]",
                "applicationConfig: [classpath:/app.properties]"], processed := ["default"] } ∧
      (searchWithRepeatedName.run twoFiles {}).environment.layerNames =
        ["applicationConfig: [classpath:/svc.properties]", "applicationConfig: [classpath:/app.properties]"] := by
  decide +kernel

end Discovery

end Ignition
