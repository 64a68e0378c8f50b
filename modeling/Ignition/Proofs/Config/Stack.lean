import Ignition.Config.Environment
import Mathlib.Data.List.Nodup
import Mathlib.Data.List.TakeWhile

/-!
# Stacks of layers

What the operations on the layers of an environment leave. Where the names of the layers are distinct, taking a layer away is filtering
by name, and a layer that is added takes away the one layer of its name, wherever that is, and changes nothing else.
-/

namespace Ignition

/-! ## Lists of layers -/

/-- Some layers without those of the names given. -/
def Layer.without (names : List String) (layers : List Layer) : List Layer :=
  layers.filter (!names.contains ·.name)

namespace Layer

variable {layers ahead behind : List Layer} {layer : Layer} {name other : String} {names : List String}

/-- Without some names, those layers are left that have another name. -/
theorem mem_without : layer ∈ without names layers ↔ layer ∈ layers ∧ layer.name ∉ names := by
  simp [without]

/-- Leaving out names from some layers and others behind them. -/
theorem without_append : without names (ahead ++ behind) = without names ahead ++ without names behind :=
  List.filter_append ahead behind

/-- A layer with one of the names is left out. -/
theorem without_cons_of_mem (h : layer.name ∈ names) : without names (layer :: layers) = without names layers :=
  List.filter_cons_of_neg (by simpa using h)

/-- A layer with another name stays. -/
theorem without_cons_of_notMem (h : layer.name ∉ names) :
    without names (layer :: layers) = layer :: without names layers :=
  List.filter_cons_of_pos (by simpa using h)

/-- Without any names, all layers stay. -/
@[simp] theorem without_nil : without [] layers = layers := by
  simp [without]

/-- The names left are the others, in order. -/
theorem names_without :
    (without names layers).map (·.name) = (layers.map (·.name)).filter (!names.contains ·) := by
  rw [List.filter_map]
  rfl

/-- Names that no layer has take nothing away. -/
theorem without_eq_self (h : ∀ layer ∈ layers, layer.name ∉ names) : without names layers = layers := by
  rw [without, List.filter_eq_self]
  intro layer hl
  simpa using h layer hl

/-- Names are taken away one after the other. -/
theorem without_without : without [name] (without names layers) = without (name :: names) layers := by
  rw [without, without, without, List.filter_filter]
  refine List.filter_congr fun layer _ => ?_
  by_cases h : layer.name = name <;> simp [h]

/-- Names that are taken away after some of them make no difference. -/
theorem without_without_of_subset {taken : List String} (h : taken ⊆ names) :
    without names (without taken layers) = without names layers := by
  rw [without, without, without, List.filter_filter]
  refine List.filter_congr fun layer _ => ?_
  by_cases hlayer : layer.name ∈ taken
  · simp [h hlayer]
  · simp [hlayer]

/-- The first layers before one of a name, and those from it on. -/
theorem exists_eq_append (h : name ∈ layers.map (·.name)) :
    ∃ ahead found behind, layers = ahead ++ found :: behind ∧ found.name = name ∧ ∀ layer ∈ ahead, layer.name ≠ name := by
  induction layers with
  | nil => cases h
  | cons first layers ih =>
    by_cases hname : first.name = name
    · exact ⟨[], first, layers, rfl, hname, fun _ hl => absurd hl List.not_mem_nil⟩
    · rw [List.map_cons, List.mem_cons] at h
      obtain ⟨ahead, found, behind, rfl, hfound, hahead⟩ := ih (h.resolve_left (Ne.symm hname))
      refine ⟨first :: ahead, found, behind, rfl, hfound, ?_⟩
      intro layer hl
      rcases List.mem_cons.mp hl with rfl | hl
      · exact hname
      · exact hahead layer hl

/-- Where names are distinct, the layers around one have other names. -/
theorem name_ne_of_nodup {found : Layer} (h : ((ahead ++ found :: behind).map (·.name)).Nodup) :
    (∀ layer ∈ ahead, layer.name ≠ found.name) ∧ ∀ layer ∈ behind, layer.name ≠ found.name := by
  rw [List.map_append, List.map_cons, List.nodup_append, List.nodup_cons] at h
  obtain ⟨-, ⟨hbehind, -⟩, hahead⟩ := h
  refine ⟨?_, ?_⟩
  · intro layer hl
    exact hahead _ (List.mem_map_of_mem hl) _ List.mem_cons_self
  · intro layer hl he
    exact hbehind (he ▸ List.mem_map_of_mem hl)

/-- Where names are distinct, taking the first layer of a name away is taking all of that name away. -/
theorem eraseP_eq_without (h : (layers.map (·.name)).Nodup) : layers.eraseP (·.name = name) = without [name] layers := by
  by_cases hname : name ∈ layers.map (·.name)
  · obtain ⟨ahead, found, behind, rfl, rfl, hahead⟩ := exists_eq_append hname
    obtain ⟨-, hbehind⟩ := name_ne_of_nodup h
    rw [List.eraseP_append_right _ (by simpa using hahead), List.eraseP_cons_of_pos (by simp)]
    rw [without_append, without_cons_of_mem (by simp), without_eq_self (by simpa using hahead),
      without_eq_self (by simpa using hbehind)]
  · have hnone : ∀ layer ∈ layers, layer.name ≠ name := fun layer hl he => hname (he ▸ List.mem_map_of_mem hl)
    rw [List.eraseP_of_forall_not (by simpa using hnone), without_eq_self (by simpa using hnone)]

/-- The first layer stays the first if its name is not taken away. -/
theorem head?_without (h : ∀ layer ∈ layers.head?, layer.name ∉ names) : (without names layers).head? = layers.head? := by
  cases layers with
  | nil => rfl
  | cons first layers =>
    rw [without_cons_of_notMem (h first rfl)]
    rfl

/-- Where names are distinct, they are so behind the insertion of a layer that takes away the one of its name. -/
theorem nodup_names_insert (h : ((ahead ++ behind).map (·.name)).Nodup) :
    ((without [layer.name] ahead ++ layer :: without [layer.name] behind).map (·.name)).Nodup := by
  have hperm : (without [layer.name] ahead ++ layer :: without [layer.name] behind).Perm
      (layer :: without [layer.name] (ahead ++ behind)) := by
    rw [without_append]
    exact List.perm_middle
  have hnew : layer.name ∉ (without [layer.name] (ahead ++ behind)).map (·.name) := by
    intro hmem
    obtain ⟨other, ho, hname⟩ := List.mem_map.mp hmem
    exact (mem_without.mp ho).2 (List.mem_singleton.mpr hname)
  rw [(hperm.map _).nodup_iff, List.map_cons, List.nodup_cons]
  exact ⟨hnew, h.sublist (List.filter_sublist.map _)⟩

end Layer

/-! ## Environments -/

namespace Environment

open Layer (without)

/-- The layers ahead of the first one of a name; all of them if there is none. -/
def layersAhead (env : Environment) (name : String) : List Layer :=
  env.layers.takeWhile (·.name ≠ name)

/-- The layers behind the first one of a name; none of them if there is none. -/
def layersBehind (env : Environment) (name : String) : List Layer :=
  (env.layers.dropWhile (·.name ≠ name)).tail

variable {env : Environment} {layer found : Layer} {ahead behind : List Layer} {name : String}

/-- A layer of one name is ahead of one of another. -/
def Ahead (env : Environment) (name other : String) : Prop :=
  [name, other].Sublist env.layerNames

/-- The layer of a name is the first one that has it. -/
theorem layer?_eq_some (hlayers : env.layers = ahead ++ found :: behind) (hahead : ∀ layer ∈ ahead, layer.name ≠ found.name) :
    env.layer? found.name = some found := by
  rw [layer?, hlayers, List.find?_append, List.find?_eq_none.mpr (by simpa using hahead)]
  simp

/-- A name divides the layers at the first one that has it. -/
theorem layers_cases (env : Environment) (name : String) :
    (env.layer? name = none ∧ env.layersAhead name = env.layers ∧ env.layersBehind name = [] ∧
        ∀ layer ∈ env.layers, layer.name ≠ name) ∨
      ∃ found, env.layer? name = some found ∧ found.name = name ∧
        env.layers = env.layersAhead name ++ found :: env.layersBehind name ∧
        ∀ layer ∈ env.layersAhead name, layer.name ≠ name := by
  by_cases h : name ∈ env.layers.map (·.name)
  · obtain ⟨ahead, found, behind, hlayers, rfl, hahead⟩ := Layer.exists_eq_append h
    have htake : env.layersAhead found.name = ahead := by
      rw [layersAhead, hlayers, List.takeWhile_append_of_pos (by simpa using hahead)]
      simp
    have hdrop : env.layersBehind found.name = behind := by
      rw [layersBehind, hlayers, List.dropWhile_append_of_pos (by simpa using hahead)]
      simp
    rw [htake, hdrop]
    exact Or.inr ⟨found, layer?_eq_some hlayers hahead, rfl, hlayers, hahead⟩
  · have hnone : ∀ layer ∈ env.layers, layer.name ≠ name := fun layer hl he => h (he ▸ List.mem_map_of_mem hl)
    refine Or.inl ⟨List.find?_eq_none.mpr (by simpa using hnone), ?_, ?_, hnone⟩
    · exact List.takeWhile_eq_self_iff.mpr (by simpa using hnone)
    · rw [layersBehind, List.dropWhile_eq_nil_iff.mpr (by simpa using hnone)]
      rfl

/-- An environment has a layer of a name exactly if the name is among those of its layers. -/
theorem hasLayer_iff : env.hasLayer name = true ↔ name ∈ env.layerNames := by
  simp [hasLayer, layerNames]

/-- Removing a layer leaves the others as they are. -/
theorem layers_remove (h : env.layerNames.Nodup) : (env.remove name).layers = without [name] env.layers :=
  Layer.eraseP_eq_without h

/-- A layer that is added last takes away the one of its name. -/
theorem layers_addLast (h : env.layerNames.Nodup) :
    (env.addLast layer).layers = without [layer.name] env.layers ++ [layer] := by
  rw [addLast, layers_remove h]

/-- New layers come in the place of the first layer of a name. -/
theorem spliceAt_append {new : Layer → List Layer} (hahead : ∀ layer ∈ ahead, layer.name ≠ found.name) :
    spliceAt found.name new (ahead ++ found :: behind) = ahead ++ (new found ++ behind) := by
  induction ahead with
  | nil => rw [List.nil_append, List.nil_append, spliceAt, if_pos rfl]
  | cons first ahead ih =>
    rw [List.cons_append, List.cons_append, spliceAt, if_neg (hahead first List.mem_cons_self)]
    rw [ih fun layer hl => hahead layer (List.mem_cons_of_mem _ hl)]

/-- What comes in the place of a layer, once another name is taken away on either side of it. -/
theorem spliceAt_remove {new : Layer → List Layer} (h : env.layerNames.Nodup)
    (hlayers : env.layers = ahead ++ found :: behind) (hne : name ≠ found.name) :
    spliceAt found.name new (env.remove name).layers = without [name] ahead ++ (new found ++ without [name] behind) := by
  have hahead : ∀ other ∈ without [name] ahead, other.name ≠ found.name := by
    rw [layerNames, hlayers] at h
    exact fun other ho => (Layer.name_ne_of_nodup h).1 other (Layer.mem_without.mp ho).1
  rw [layers_remove h, hlayers, Layer.without_append, Layer.without_cons_of_notMem (by simpa using hne.symm)]
  exact spliceAt_append hahead

/-- A layer that is among others is known by its name. -/
theorem hasLayer_of_layers (hlayers : env.layers = ahead ++ found :: behind) : env.hasLayer found.name = true := by
  rw [hasLayer_iff, layerNames, hlayers]
  simp

/-- A layer that is added ahead of another takes away the one of its name on either side of that. -/
theorem layers_addBefore? (h : env.layerNames.Nodup) (hlayers : env.layers = ahead ++ found :: behind)
    (hne : layer.name ≠ found.name) : env.addBefore? found.name layer =
      some { env with layers := without [layer.name] ahead ++ layer :: found :: without [layer.name] behind } := by
  rw [addBefore?, spliceAt_remove h hlayers hne]
  simp [hasLayer_of_layers hlayers, hne.symm]

/-- A layer that is added behind another takes away the one of its name on either side of that. -/
theorem layers_addAfter? (h : env.layerNames.Nodup) (hlayers : env.layers = ahead ++ found :: behind)
    (hne : layer.name ≠ found.name) : env.addAfter? found.name layer =
      some { env with layers := without [layer.name] ahead ++ found :: layer :: without [layer.name] behind } := by
  rw [addAfter?, spliceAt_remove h hlayers hne]
  simp [hasLayer_of_layers hlayers, hne.symm]

/-- A layer that has the name of the one that it replaces stands in its place, and the others stay. -/
theorem replace?_of_name_eq (hlayers : env.layers = ahead ++ found :: behind) (hahead : ∀ layer ∈ ahead, layer.name ≠ found.name)
    (heq : layer.name = found.name) :
    env.replace? found.name layer = some { env with layers := ahead ++ layer :: behind } := by
  rw [replace?, hasLayer_of_layers hlayers]
  simp only [Bool.not_true, Bool.false_eq_true, if_false, heq, if_true, hlayers]
  rw [spliceAt_append hahead]
  rfl

/-- A layer that replaces another takes away the one of its name on either side of that. -/
theorem layers_replace? (h : env.layerNames.Nodup) (hlayers : env.layers = ahead ++ found :: behind) :
    env.replace? found.name layer =
      some { env with layers := without [layer.name] ahead ++ layer :: without [layer.name] behind } := by
  by_cases heq : layer.name = found.name
  · -- The layer takes the place of the one of its own name: there is no other to be taken away.
    rw [layerNames, hlayers] at h
    obtain ⟨hahead, hbehind⟩ := Layer.name_ne_of_nodup h
    rw [replace?_of_name_eq hlayers hahead heq, Layer.without_eq_self (by simpa [heq] using hahead),
      Layer.without_eq_self (by simpa [heq] using hbehind)]
  · rw [replace?, hasLayer_of_layers hlayers]
    simp only [Bool.not_true, Bool.false_eq_true, if_false, heq]
    rw [spliceAt_remove h hlayers heq]
    rfl

/-- Taking a layer away leaves those around it. -/
theorem layers_remove_of_layers (h : env.layerNames.Nodup) (hlayers : env.layers = ahead ++ found :: behind) :
    env.remove found.name = { env with layers := ahead ++ behind } := by
  have hahead : ∀ layer ∈ ahead, layer.name ≠ found.name := by
    rw [layerNames, hlayers] at h
    exact (Layer.name_ne_of_nodup h).1
  rw [remove, hlayers, List.eraseP_append_right _ (by simpa using hahead), List.eraseP_cons_of_pos (by simp)]

/-- There is no layer of a name exactly if no layer has it. -/
theorem layer?_eq_none_iff : env.layer? name = none ↔ name ∉ env.layerNames := by
  simp [layer?, layerNames]

/-- No layer can be put ahead of itself or of one that is not there. -/
theorem addBefore?_eq_none_iff : env.addBefore? name layer = none ↔ name = layer.name ∨ name ∉ env.layerNames := by
  rw [addBefore?, ← hasLayer_iff, Bool.not_eq_true]
  simp [Decidable.imp_iff_not_or]

/-- No layer can be put behind itself or one that is not there. -/
theorem addAfter?_eq_none_iff : env.addAfter? name layer = none ↔ name = layer.name ∨ name ∉ env.layerNames := by
  rw [addAfter?, ← hasLayer_iff, Bool.not_eq_true]
  simp [Decidable.imp_iff_not_or]

/-- No layer can be replaced that is not there. -/
theorem replace?_eq_none_iff : env.replace? name layer = none ↔ name ∉ env.layerNames := by
  rw [replace?, ← hasLayer_iff]
  simp

/-- Where no layer has a name, nothing is taken away. -/
theorem remove_eq_self (h : name ∉ env.layerNames) : env.remove name = env := by
  have hnone : ∀ layer ∈ env.layers, layer.name ≠ name := fun layer hl he => h (he ▸ List.mem_map_of_mem hl)
  rw [remove, List.eraseP_of_forall_not (by simpa using hnone)]

/-! ## Layers that stay -/

/-- A layer of another name is not taken away. -/
theorem mem_remove (hmem : layer ∈ env.layers) (hne : layer.name ≠ name) : layer ∈ (env.remove name).layers :=
  (List.mem_eraseP_of_neg (by simpa using hne)).mpr hmem

/-- Layers that come in the place of one and hold it again take none away. -/
theorem mem_spliceAt {new : Layer → List Layer} {layers : List Layer} (hnew : ∀ old, old ∈ new old) (hmem : layer ∈ layers) :
    layer ∈ spliceAt name new layers := by
  induction layers with
  | nil => cases hmem
  | cons first rest ih =>
    rw [spliceAt]
    split
    · rcases List.mem_cons.mp hmem with rfl | hmem
      · exact List.mem_append_left _ (hnew layer)
      · exact List.mem_append_right _ hmem
    · rcases List.mem_cons.mp hmem with rfl | hmem
      · exact List.mem_cons_self
      · exact List.mem_cons_of_mem _ (ih hmem)

/-- What comes in the place of a layer is there, if there is a layer of that name. -/
theorem mem_spliceAt_self {new : Layer → List Layer} {layers : List Layer} (hnew : ∀ old, layer ∈ new old)
    (h : name ∈ layers.map (·.name)) : layer ∈ spliceAt name new layers := by
  obtain ⟨ahead, found, behind, rfl, rfl, hahead⟩ := Layer.exists_eq_append h
  rw [spliceAt_append hahead]
  exact List.mem_append_right _ (List.mem_append_left _ (hnew found))

/-! ## Which layer decides -/

/-- Where layer names are distinct, each layer is the one of its name. -/
theorem layer?_of_mem (hnodup : env.layerNames.Nodup) (hmem : layer ∈ env.layers) : env.layer? layer.name = some layer := by
  obtain ⟨ahead, behind, hlayers⟩ := List.append_of_mem hmem
  rw [layerNames, hlayers] at hnodup
  exact layer?_eq_some hlayers (Layer.name_ne_of_nodup hnodup).1

/-- What comes behind an element comes behind the first place where that one stands. -/
theorem mem_of_pair_sublist {α : Type} {a b : α} {before behind : List α} (hbefore : a ∉ before)
    (h : [a, b].Sublist (before ++ a :: behind)) : b ∈ behind := by
  obtain ⟨front, back, heq, hfront, hback⟩ := List.sublist_append_iff.mp h
  cases front with
  | nil =>
    rw [List.nil_append] at heq
    rw [← heq, List.cons_sublist_cons] at hback
    exact List.singleton_sublist.mp hback
  | cons first front =>
    obtain ⟨rfl, -⟩ := List.cons.inj heq
    exact absurd (hfront.subset List.mem_cons_self) hbefore

/-- Where layer names are distinct, a layer decides a key that it has a value for, if no layer but one behind it has a value too. The other
layer is not among those ahead of it. -/
theorem get?_of_ahead {key value other : String} (hnodup : env.layerNames.Nodup) (hlayer : env.layer? name = some layer)
    (hahead : env.Ahead name other) (hvalue : layer.get? key = some value)
    (hrest : ∀ rest ∈ env.layers, rest.name ≠ name → rest.name ≠ other → rest.get? key = none) : env.get? key = some value := by
  rcases env.layers_cases name with ⟨hnone, -⟩ | ⟨found, hfound, rfl, hlayers, hbefore⟩
  · exact nomatch hnone.symm.trans hlayer
  · obtain rfl : found = layer := Option.some.inj (hfound.symm.trans hlayer)
    have hnot : ∀ rest ∈ env.layersAhead found.name, rest.name ≠ other := by
      rintro rest hmem rfl
      rw [Ahead, layerNames, hlayers, List.map_append, List.map_cons] at hahead
      rw [layerNames, hlayers, List.map_append, List.map_cons, List.nodup_append] at hnodup
      have hbehind := mem_of_pair_sublist (by simpa using hbefore) hahead
      exact hnodup.2.2 rest.name (List.mem_map_of_mem hmem) rest.name (List.mem_cons_of_mem _ hbehind) rfl
    have hnone : (env.layersAhead found.name).findSome? (·.get? key) = none := by
      rw [List.findSome?_eq_none_iff]
      intro rest hmem
      exact hrest rest (hlayers ▸ List.mem_append_left _ hmem) (hbefore rest hmem) (hnot rest hmem)
    rw [get?, hlayers, List.findSome?_append, hnone, Option.none_or, List.findSome?_cons_of_isSome]
    · exact hvalue
    · rw [hvalue]
      rfl

end Environment

end Ignition
