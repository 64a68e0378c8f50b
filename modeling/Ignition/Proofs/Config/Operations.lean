import Ignition.Proofs.Config.Profiles
import Ignition.Proofs.Config.Stack

/-!
# Sequences of operations on an environment

What an operation can do to an environment in which no layer name comes twice, said once (`Operation.Effect`): a layer goes to one end of
the stack, or right next to another one, or in the place of another one, and takes the layer of its own name away, wherever that is; a
layer is taken away; profiles are activated. An operation that finds no layer of the name it is given changes nothing and says so. From
this it follows that any sequence of operations, beginning with an empty environment, leaves no layer name and no profile twice, and that
each operation leaves the layers alone that it does not move (`stack_of_operations`).
-/

namespace Ignition

namespace Environment

open Layer (without)

/-! ## Operations and their answers -/

/-- An operation on an environment. -/
inductive Operation where
  /-- Adds a layer with the highest precedence. -/
  | addFirst (layer : Layer)
  /-- Adds a layer with the lowest precedence. -/
  | addLast (layer : Layer)
  /-- Adds a layer right ahead of the one named. -/
  | addBefore (name : String) (layer : Layer)
  /-- Adds a layer right behind the one named. -/
  | addAfter (name : String) (layer : Layer)
  /-- Puts a layer in the place of the one named. -/
  | replace (name : String) (layer : Layer)
  /-- Takes the layer away that is named. -/
  | remove (name : String)
  /-- Makes exactly the profiles given active. -/
  | setActive (profiles : List String)
  /-- Activates a profile behind the others. -/
  | activate (profile : String)
  /-- Activates a profile ahead of the others. -/
  | activateFirst (profile : String)
  /-- Sets the profiles that apply if none is active. -/
  | setDefaults (profiles : List String)
deriving DecidableEq, Repr

/-- What the caller of an operation is told. -/
inductive Answer where
  /-- Nothing. -/
  | nothing
  /-- Whether the layer was added. -/
  | added (done : Bool)
  /-- The layer that was taken away or replaced, if there was one. -/
  | previous (layer : Option Layer)
deriving DecidableEq, Repr

namespace Operation

/-- The environment behind an operation. -/
def apply (env : Environment) : Operation → Environment
  | addFirst layer => env.addFirst layer
  | addLast layer => env.addLast layer
  | addBefore name layer => (env.addBefore? name layer).getD env
  | addAfter name layer => (env.addAfter? name layer).getD env
  | replace name layer => (env.replace? name layer).getD env
  | remove name => env.remove name
  | setActive profiles => env.setActive profiles
  | activate profile => env.activate profile
  | activateFirst profile => env.activateFirst profile
  | setDefaults profiles => env.setDefaults profiles

/-- What the caller of an operation is told of it. -/
def answer (env : Environment) : Operation → Answer
  | addBefore name layer => .added (env.addBefore? name layer).isSome
  | addAfter name layer => .added (env.addAfter? name layer).isSome
  | replace name _ | remove name => .previous (env.layer? name)
  | addFirst _ | addLast _ | setActive _ | activate _ | activateFirst _ | setDefaults _ => .nothing

/-- The names of the layers that an operation puts somewhere or takes away. A layer that only says where another one goes stays. -/
def moved : Operation → List String
  | addFirst layer | addLast layer | addBefore _ layer | addAfter _ layer => [layer.name]
  | replace name layer => [name, layer.name]
  | remove name => [name]
  | setActive _ | activate _ | activateFirst _ | setDefaults _ => []

/-! ## What an operation can do -/

/-- What an operation can answer and leave where no layer name comes twice. -/
inductive Effect (env : Environment) : Operation → Answer → Environment → Prop where
  | first (layer : Layer) :
      Effect env (.addFirst layer) .nothing { env with layers := layer :: without [layer.name] env.layers }
  | last (layer : Layer) :
      Effect env (.addLast layer) .nothing { env with layers := without [layer.name] env.layers ++ [layer] }
  | before {ahead behind : List Layer} {found layer : Layer} :
      env.layers = ahead ++ found :: behind → layer.name ≠ found.name → Effect env (.addBefore found.name layer) (.added true)
        { env with layers := without [layer.name] ahead ++ layer :: found :: without [layer.name] behind }
  | after {ahead behind : List Layer} {found layer : Layer} :
      env.layers = ahead ++ found :: behind → layer.name ≠ found.name → Effect env (.addAfter found.name layer) (.added true)
        { env with layers := without [layer.name] ahead ++ found :: layer :: without [layer.name] behind }
  | replaced {ahead behind : List Layer} {found : Layer} (layer : Layer) :
      env.layers = ahead ++ found :: behind → Effect env (.replace found.name layer) (.previous (some found))
        { env with layers := without [layer.name] ahead ++ layer :: without [layer.name] behind }
  | removed {ahead behind : List Layer} {found : Layer} :
      env.layers = ahead ++ found :: behind →
      Effect env (.remove found.name) (.previous (some found)) { env with layers := ahead ++ behind }
  /-- There is no layer of the name, or it is the layer itself. -/
  | notBefore {name : String} {layer : Layer} :
      name = layer.name ∨ name ∉ env.layerNames → Effect env (.addBefore name layer) (.added false) env
  /-- There is no layer of the name, or it is the layer itself. -/
  | notAfter {name : String} {layer : Layer} :
      name = layer.name ∨ name ∉ env.layerNames → Effect env (.addAfter name layer) (.added false) env
  | notReplaced {name : String} (layer : Layer) :
      name ∉ env.layerNames → Effect env (.replace name layer) (.previous none) env
  | notRemoved {name : String} : name ∉ env.layerNames → Effect env (.remove name) (.previous none) env
  | setActive (profiles : List String) :
      Effect env (.setActive profiles) .nothing { env with active := profiles.foldl withName [] }
  | activate (profile : String) : Effect env (.activate profile) .nothing { env with active := withName env.active profile }
  | activateFirst (profile : String) :
      Effect env (.activateFirst profile) .nothing { env with active := withNameFirst env.active profile }
  | setDefaults (profiles : List String) :
      Effect env (.setDefaults profiles) .nothing { env with defaults := profiles.foldl withName [] }

variable {env next : Environment} {operation : Operation} {answer : Answer} {name : String} {layer : Layer}

/-- A name is that of a layer between others, or of none. -/
theorem layers_or_notMem (env : Environment) (name : String) :
    (∃ ahead found behind, env.layers = ahead ++ found :: behind ∧ found.name = name ∧ env.layer? name = some found) ∨
      name ∉ env.layerNames := by
  rcases env.layers_cases name with ⟨hnone, -⟩ | ⟨found, hfound, hname, hlayers, -⟩
  · exact Or.inr (layer?_eq_none_iff.mp hnone)
  · exact Or.inl ⟨_, found, _, hlayers, hname, hfound⟩

/-- Where no layer name comes twice, an operation has one of these effects. -/
theorem effect (h : env.layerNames.Nodup) (operation : Operation) :
    Effect env operation (operation.answer env) (operation.apply env) := by
  cases operation with
  | addFirst layer =>
    rw [apply, Environment.addFirst, layers_remove h]
    exact .first layer
  | addLast layer =>
    rw [apply, Environment.addLast, layers_remove h]
    exact .last layer
  | addBefore name layer =>
    by_cases hnone : name = layer.name ∨ name ∉ env.layerNames
    · rw [Operation.answer, apply, addBefore?_eq_none_iff.mpr hnone]
      exact .notBefore hnone
    · obtain ⟨hne, hmem⟩ := not_or.mp hnone
      obtain ⟨ahead, found, behind, hlayers, rfl, -⟩ := (layers_or_notMem env name).resolve_right hmem
      rw [Operation.answer, apply, layers_addBefore? h hlayers (Ne.symm hne)]
      exact .before hlayers (Ne.symm hne)
  | addAfter name layer =>
    by_cases hnone : name = layer.name ∨ name ∉ env.layerNames
    · rw [Operation.answer, apply, addAfter?_eq_none_iff.mpr hnone]
      exact .notAfter hnone
    · obtain ⟨hne, hmem⟩ := not_or.mp hnone
      obtain ⟨ahead, found, behind, hlayers, rfl, -⟩ := (layers_or_notMem env name).resolve_right hmem
      rw [Operation.answer, apply, layers_addAfter? h hlayers (Ne.symm hne)]
      exact .after hlayers (Ne.symm hne)
  | replace name layer =>
    rcases layers_or_notMem env name with ⟨ahead, found, behind, hlayers, rfl, hfound⟩ | hnone
    · rw [Operation.answer, apply, hfound, layers_replace? h hlayers]
      exact .replaced layer hlayers
    · rw [Operation.answer, apply, layer?_eq_none_iff.mpr hnone, replace?_eq_none_iff.mpr hnone]
      exact .notReplaced layer hnone
  | remove name =>
    rcases layers_or_notMem env name with ⟨ahead, found, behind, hlayers, rfl, hfound⟩ | hnone
    · rw [Operation.answer, apply, hfound, layers_remove_of_layers h hlayers]
      exact .removed hlayers
    · rw [Operation.answer, apply, layer?_eq_none_iff.mpr hnone, remove_eq_self hnone]
      exact .notRemoved hnone
  | setActive profiles => exact .setActive profiles
  | activate profile => exact .activate profile
  | activateFirst profile => exact .activateFirst profile
  | setDefaults profiles => exact .setDefaults profiles

/-! ## What every operation keeps -/

/-- No layer name comes twice behind an operation if none did before. -/
theorem Effect.nodup_layerNames (heffect : Effect env operation answer next) (h : env.layerNames.Nodup) :
    next.layerNames.Nodup := by
  rw [layerNames] at h ⊢
  cases heffect with
  | first layer => exact @Layer.nodup_names_insert [] env.layers layer h
  | last layer =>
    have hinsert := @Layer.nodup_names_insert env.layers [] layer (by rwa [List.append_nil])
    exact hinsert
  | @before ahead behind found layer hlayers hne =>
    rw [hlayers] at h
    have hinsert := @Layer.nodup_names_insert ahead (found :: behind) layer h
    rw [Layer.without_cons_of_notMem (by simpa using hne.symm)] at hinsert
    exact hinsert
  | @after ahead behind found layer hlayers hne =>
    rw [hlayers, List.append_cons] at h
    have hinsert := @Layer.nodup_names_insert (ahead ++ [found]) behind layer h
    rw [Layer.without_append, Layer.without_cons_of_notMem (by simpa using hne.symm)] at hinsert
    change ((without [layer.name] ahead ++ found :: layer :: without [layer.name] behind).map (·.name)).Nodup
    rw [List.append_cons]
    exact hinsert
  | replaced layer hlayers =>
    rw [hlayers] at h
    exact Layer.nodup_names_insert (h.sublist (((List.sublist_cons_self _ _).append_left _).map _))
  | removed hlayers =>
    rw [hlayers] at h
    exact h.sublist (((List.sublist_cons_self _ _).append_left _).map _)
  | notBefore | notAfter | notReplaced | notRemoved | setActive | activate | activateFirst | setDefaults => exact h

/-- No profile comes twice behind an operation if none did before. -/
theorem Effect.nodup_profiles (heffect : Effect env operation answer next) (hactive : env.active.Nodup)
    (hdefaults : env.defaults.Nodup) : next.active.Nodup ∧ next.defaults.Nodup := by
  have hset : ∀ profiles : List String, (profiles.foldl withName []).Nodup := fun profiles =>
    (Grown.foldl grown_withName [] profiles).nodup List.nodup_nil
  cases heffect with
  | setActive profiles => exact ⟨hset profiles, hdefaults⟩
  | activate profile => exact ⟨nodup_withName hactive, hdefaults⟩
  | activateFirst profile => exact ⟨nodup_withNameFirst hactive, hdefaults⟩
  | setDefaults profiles => exact ⟨hactive, hset profiles⟩
  | _ => exact ⟨hactive, hdefaults⟩

/-- An operation leaves the layers alone that it does not move: what they hold, and their order. -/
theorem Effect.without_moved (heffect : Effect env operation answer next) :
    without operation.moved next.layers = without operation.moved env.layers := by
  have hidem : ∀ (name : String) (layers : List Layer), without [name] (without [name] layers) = without [name] layers :=
    fun name layers => Layer.without_without_of_subset (List.Subset.refl [name])
  cases heffect with
  | first layer => rw [moved, Layer.without_cons_of_mem List.mem_cons_self, hidem]
  | last layer =>
    rw [moved, Layer.without_append, hidem, Layer.without_cons_of_mem List.mem_cons_self]
    exact List.append_nil _
  | before hlayers hne =>
    rw [moved, hlayers, Layer.without_append, hidem, Layer.without_cons_of_mem List.mem_cons_self,
      Layer.without_cons_of_notMem (by simpa using hne.symm), hidem, Layer.without_append,
      Layer.without_cons_of_notMem (by simpa using hne.symm)]
  | after hlayers hne =>
    rw [moved, hlayers, Layer.without_append, hidem, Layer.without_cons_of_notMem (by simpa using hne.symm),
      Layer.without_cons_of_mem List.mem_cons_self, hidem, Layer.without_append,
      Layer.without_cons_of_notMem (by simpa using hne.symm)]
  | @replaced ahead behind found layer hlayers =>
    have hnew : ∀ layers, without [found.name, layer.name] (without [layer.name] layers) =
        without [found.name, layer.name] layers :=
      fun layers => Layer.without_without_of_subset (List.subset_cons_self found.name [layer.name])
    rw [moved, hlayers, Layer.without_append, hnew, Layer.without_cons_of_mem (by simp), hnew, Layer.without_append,
      Layer.without_cons_of_mem List.mem_cons_self]
  | removed hlayers =>
    rw [moved, hlayers, Layer.without_append, Layer.without_append, Layer.without_cons_of_mem List.mem_cons_self]
  | notBefore | notAfter | notReplaced | notRemoved | setActive | activate | activateFirst | setDefaults => rfl

/-- No layer name and no profile comes twice behind operations on an environment in which none does. -/
theorem nodup_foldl_apply (operations : List Operation) (h : env.layerNames.Nodup) (hactive : env.active.Nodup)
    (hdefaults : env.defaults.Nodup) :
    let after := operations.foldl apply env
    after.layerNames.Nodup ∧ after.active.Nodup ∧ after.defaults.Nodup := by
  induction operations generalizing env with
  | nil => exact ⟨h, hactive, hdefaults⟩
  | cons operation rest ih =>
    have heffect := effect h operation
    obtain ⟨hactive', hdefaults'⟩ := heffect.nodup_profiles hactive hdefaults
    exact ih (heffect.nodup_layerNames h) hactive' hdefaults'

/-- After any sequence of operations on an empty environment:
1. no layer name comes twice, and no active profile and no default profile does;
2. the next operation, whichever it is, leaves what the layers hold that it does not move, and their order;
3. a layer that it adds ahead of another or behind it stands right there, unless it is that layer itself or there is none of the name,
   and then the environment stays as it is;
4. a layer that it replaces another with stands where that one stood among the others, also if there was one of its own name before, and
   a layer that it takes away leaves the others where they were; if there is none of the name, the environment stays as it is. -/
theorem stack_of_operations (operations : List Operation) :
    let env := operations.foldl apply {}
    (env.layerNames.Nodup ∧ env.active.Nodup ∧ env.defaults.Nodup) ∧
      ∀ operation : Operation,
        let next := operation.apply env
        without operation.moved next.layers = without operation.moved env.layers ∧
          match operation, operation.answer env with
          | .addFirst layer, .nothing => next.layers = layer :: without [layer.name] env.layers
          | .addLast layer, .nothing => next.layers = without [layer.name] env.layers ++ [layer]
          | .addBefore name layer, .added true =>
            ∃ ahead found behind, found ∈ env.layers ∧ found.name = name ∧ next.layers = ahead ++ layer :: found :: behind
          | .addAfter name layer, .added true =>
            ∃ ahead found behind, found ∈ env.layers ∧ found.name = name ∧ next.layers = ahead ++ found :: layer :: behind
          | .addBefore name layer, .added false | .addAfter name layer, .added false =>
            (name = layer.name ∨ name ∉ env.layerNames) ∧ next = env
          | .replace name layer, .previous (some found) =>
            ∃ ahead behind, env.layers = ahead ++ found :: behind ∧ found.name = name ∧
              next.layers = without [layer.name] ahead ++ layer :: without [layer.name] behind
          | .remove name, .previous (some found) =>
            ∃ ahead behind, env.layers = ahead ++ found :: behind ∧ found.name = name ∧ next.layers = ahead ++ behind
          | .replace name _, .previous none | .remove name, .previous none => name ∉ env.layerNames ∧ next = env
          | .setActive _, .nothing | .activate _, .nothing | .activateFirst _, .nothing | .setDefaults _, .nothing =>
            next.layers = env.layers
          | _, _ => False := by
  intro env
  have hnodup := @nodup_foldl_apply {} operations List.nodup_nil List.nodup_nil (List.nodup_singleton _)
  refine ⟨hnodup, fun operation => ?_⟩
  have heffect := effect hnodup.1 operation
  refine ⟨heffect.without_moved, ?_⟩
  change Effect env operation (operation.answer env) (operation.apply env) at heffect
  generalize operation.answer env = answer at heffect
  generalize operation.apply env = next at heffect
  cases heffect with
  | first | last | setActive | activate | activateFirst | setDefaults => rfl
  | before hlayers _ => exact ⟨_, _, _, hlayers ▸ List.mem_append_right _ List.mem_cons_self, rfl, rfl⟩
  | after hlayers _ => exact ⟨_, _, _, hlayers ▸ List.mem_append_right _ List.mem_cons_self, rfl, rfl⟩
  | replaced layer hlayers => exact ⟨_, _, hlayers, rfl, rfl⟩
  | removed hlayers => exact ⟨_, _, hlayers, rfl, rfl⟩
  | notBefore hnone => exact ⟨hnone, rfl⟩
  | notAfter hnone => exact ⟨hnone, rfl⟩
  | notReplaced layer hnone => exact ⟨hnone, rfl⟩
  | notRemoved hnone => exact ⟨hnone, rfl⟩

/-- A layer that stood ahead of the one that it replaces stands there no more. -/
example :
    ((replace "b" (Layer.ofEntries "a" [])).apply
      { layers := ["a", "x", "b", "y"].map (Layer.ofEntries · []) }).layerNames = ["x", "a", "y"] := by decide

end Operation

end Environment

end Ignition
