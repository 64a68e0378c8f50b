import Ignition.Config.Arguments
import Ignition.Proofs.Config.Overlay
import Ignition.Proofs.Config.Stack

/-!
# Putting command lines into an environment

What a command line does to an environment depends on whether there is a layer of arguments. If there is one, the command line is laid over
it where it stands (`applyTo_of_layers`); if there is none, it becomes the first layer, unless it is empty (`applyTo_of_none`). So
command lines that are put in one after the other are laid over each other, and one that is put in twice counts once
(`layer_of_applications`).
-/

namespace Ignition

namespace Arguments

open Environment

variable {env : Environment} {arguments first second : Arguments} {ahead behind : List Layer} {old : Layer}

/-! ## The layer of arguments -/

/-- The layer of the command line is the first one of its name. -/
theorem layer?_of_layers {layer : Layer} (hlayers : env.layers = ahead ++ layer :: behind)
    (hname : layer.name = LayerName.commandLine) (hahead : ∀ other ∈ ahead, other.name ≠ LayerName.commandLine) :
    env.layer? LayerName.commandLine = some layer := by
  rw [← hname] at hahead ⊢
  exact layer?_eq_some hlayers hahead

/-- A layer of this name that is put first is that of the command line. -/
theorem layer?_first {layer : Layer} (env : Environment) (hname : layer.name = LayerName.commandLine) :
    { env with layers := layer :: env.layers }.layer? LayerName.commandLine = some layer := by
  have hlayers : { env with layers := layer :: env.layers }.layers = [] ++ layer :: env.layers := rfl
  exact layer?_of_layers hlayers hname nofun

/-- The layer of arguments holds explicit entries. -/
theorem isExplicit_toLayer (arguments : Arguments) : arguments.toLayer.IsExplicit :=
  Layer.isExplicit_ofEntries _ _

/-- An empty command line has no entries. -/
theorem entries_toLayer_of_isEmpty (h : arguments.isEmpty = true) : arguments.toLayer.entries = [] := by
  simp only [isEmpty, Bool.and_eq_true, List.isEmpty_iff] at h
  simp [toLayer, h.1, h.2, Entries.collapse]

/-- Without arguments it answers nothing. -/
theorem get?_toLayer_of_isEmpty (h : arguments.isEmpty = true) (key : String) : arguments.toLayer.get? key = none := by
  rw [(isExplicit_toLayer arguments).get?_eq, entries_toLayer_of_isEmpty h]
  rfl

/-! ## One command line -/

/-- No arguments leave an environment as it is. -/
theorem applyTo_of_isEmpty (h : arguments.isEmpty = true) : arguments.applyTo env = env := by
  rw [applyTo, if_pos h]

/-- Where there is a layer of arguments, a command line is laid over it, and everything else stays. -/
theorem applyTo_of_layers (hlayers : env.layers = ahead ++ old :: behind) (hname : old.name = LayerName.commandLine)
    (hahead : ∀ layer ∈ ahead, layer.name ≠ LayerName.commandLine) (hold : old.IsExplicit) :
    arguments.applyTo env = { env with layers := ahead ++ old.overlaidBy arguments.toLayer :: behind } := by
  by_cases hempty : arguments.isEmpty = true
  · rw [applyTo_of_isEmpty hempty, Layer.overlaidBy_of_entries_eq_nil hold (entries_toLayer_of_isEmpty hempty), ← hlayers]
  · rw [← hname] at hahead
    rw [applyTo, if_neg hempty, ← hname, layer?_eq_some hlayers hahead]
    have hreplace : env.replace? old.name (old.overlaidBy arguments.toLayer) =
        some { env with layers := ahead ++ old.overlaidBy arguments.toLayer :: behind } :=
      replace?_of_name_eq hlayers hahead rfl
    simp only [hreplace, Option.getD_some]

/-- Where there is none, a command line goes ahead of all layers. -/
theorem applyTo_of_none (hnone : env.layer? LayerName.commandLine = none) (hempty : ¬arguments.isEmpty = true) :
    arguments.applyTo env = { env with layers := arguments.toLayer :: env.layers } := by
  have hremove : env.remove arguments.toLayer.name = env := remove_eq_self (layer?_eq_none_iff.mp hnone)
  rw [applyTo, if_neg hempty, hnone]
  simp only [addFirst, hremove]

/-! ## Command lines one after the other -/

/-- Two command lines for an environment that has no layer of arguments are laid over each other, ahead of all layers. -/
theorem applyTo_applyTo_of_none (hnone : env.layer? LayerName.commandLine = none) (hempty : ¬first.isEmpty = true) :
    second.applyTo (first.applyTo env) = { env with layers := first.toLayer.overlaidBy second.toLayer :: env.layers } := by
  rw [applyTo_of_none hnone hempty]
  have hlayers : { env with layers := first.toLayer :: env.layers }.layers = [] ++ first.toLayer :: env.layers := rfl
  exact applyTo_of_layers hlayers rfl nofun (isExplicit_toLayer first)

/-- Two command lines for an environment that has a layer of arguments are laid over it. -/
theorem applyTo_applyTo_of_layers (hlayers : env.layers = ahead ++ old :: behind) (hname : old.name = LayerName.commandLine)
    (hahead : ∀ layer ∈ ahead, layer.name ≠ LayerName.commandLine) (hold : old.IsExplicit) :
    second.applyTo (first.applyTo env) =
      { env with layers := ahead ++ (old.overlaidBy first.toLayer).overlaidBy second.toLayer :: behind } := by
  rw [applyTo_of_layers hlayers hname hahead hold]
  have hname' : (old.overlaidBy first.toLayer).name = LayerName.commandLine := hname
  exact applyTo_of_layers rfl hname' hahead (Layer.isExplicit_overlaidBy old first.toLayer)

/-- A command line that is put in once more is laid over itself. -/
theorem applyTo_applyTo_self (arguments : Arguments) (h : ∀ old, env.layer? LayerName.commandLine = some old → old.IsExplicit) :
    arguments.applyTo (arguments.applyTo env) = arguments.applyTo env := by
  have hself := Layer.overlaidBy_self (isExplicit_toLayer arguments)
  by_cases hempty : arguments.isEmpty = true
  · rw [applyTo_of_isEmpty hempty]
  · rcases env.layers_cases LayerName.commandLine with ⟨hnone, -⟩ | ⟨old, hfound, hname, hlayers, hahead⟩
    · rw [applyTo_applyTo_of_none hnone hempty, applyTo_of_none hnone hempty, hself]
    · rw [applyTo_applyTo_of_layers hlayers hname hahead (h old hfound), applyTo_of_layers hlayers hname hahead (h old hfound),
        Layer.overlaidBy_assoc, hself]

/-- Command lines are put into any environment in which the layer of arguments, if there is one, has explicit entries:
1. a command line that is put in twice leaves what it leaves when it is put in once;
2. where there is a layer of arguments, two command lines that are put in one after the other leave it where it is, with its origin and
   profile, and all other layers and the profiles as they are; where there is none, they leave one ahead of all layers, unless both are
   empty;
3. the layer of arguments then has the values of the second command line, for other keys those of the first one, and for other keys those
   that it had before. -/
theorem layer_of_applications (env : Environment) (first second : Arguments)
    (h : ∀ old, env.layer? LayerName.commandLine = some old → old.IsExplicit) :
    first.applyTo (first.applyTo env) = first.applyTo env ∧
      let next := second.applyTo (first.applyTo env)
      match env.layer? LayerName.commandLine with
      | some old =>
        ∃ ahead behind new, env.layers = ahead ++ old :: behind ∧ next = { env with layers := ahead ++ new :: behind } ∧
          next.layer? LayerName.commandLine = some new ∧ new.origin = old.origin ∧ new.profile = old.profile ∧
          ∀ key, new.get? key = (second.toLayer.get? key).or ((first.toLayer.get? key).or (old.get? key))
      | none =>
        if first.isEmpty ∧ second.isEmpty then next = env
        else ∃ new, next = { env with layers := new :: env.layers } ∧ next.layer? LayerName.commandLine = some new ∧
          ∀ key, new.get? key = (second.toLayer.get? key).or (first.toLayer.get? key) := by
  refine ⟨applyTo_applyTo_self first h, ?_⟩
  have hfirst := isExplicit_toLayer first
  have hsecond := isExplicit_toLayer second
  rcases env.layers_cases LayerName.commandLine with ⟨hnone, -⟩ | ⟨old, hfound, hname, hlayers, hahead⟩
  · rw [hnone]
    by_cases hboth : first.isEmpty = true ∧ second.isEmpty = true
    · rw [applyTo_of_isEmpty hboth.1, applyTo_of_isEmpty hboth.2]
      simp only [if_pos hboth]
    · simp only [if_neg hboth]
      by_cases hempty : first.isEmpty = true
      · rw [applyTo_of_isEmpty hempty, applyTo_of_none hnone fun hempty' => hboth ⟨hempty, hempty'⟩]
        refine ⟨_, rfl, layer?_first env rfl, ?_⟩
        intro key
        rw [get?_toLayer_of_isEmpty hempty, Option.or_none]
      · rw [applyTo_applyTo_of_none hnone hempty]
        refine ⟨_, rfl, layer?_first env rfl, ?_⟩
        intro key
        exact Layer.get?_overlaidBy hfirst hsecond
  · have hold := h old hfound
    have hlower := Layer.isExplicit_overlaidBy old first.toLayer
    rw [hfound, applyTo_applyTo_of_layers hlayers hname hahead hold]
    refine ⟨_, _, _, hlayers, rfl, layer?_of_layers rfl hname hahead, rfl, rfl, ?_⟩
    intro key
    rw [Layer.get?_overlaidBy hlower hsecond, Layer.get?_overlaidBy hold hfirst]

/-- A layer of arguments with an origin, which stands between others. -/
def oldArguments : Layer :=
  { Layer.ofEntries LayerName.commandLine [("a", "old"), ("b", "kept"), ("c", "old")] with origin := some "file:./arguments" }

/-- The layer of arguments between others that have some of its keys. -/
def argumentsBetween : Environment :=
  { layers := [Layer.ofEntries "file" [("a", "file")], oldArguments, Layer.ofEntries LayerName.defaults [("b", "default")]] }

/-- Arguments that are applied twice, to an environment that has those of a command line between two other layers. -/
theorem layer_of_applications_between :
    let first : Arguments := { options := [("a", ["1"]), ("c", ["1"])], positional := ["in"] }
    let second : Arguments := { options := [("c", ["2", "3"])] }
    argumentsBetween.layer? LayerName.commandLine = some oldArguments ∧ oldArguments.IsExplicit ∧
      first.applyTo (first.applyTo argumentsBetween) = first.applyTo argumentsBetween ∧
      ∃ new, (second.applyTo (first.applyTo argumentsBetween)).layer? LayerName.commandLine = some new ∧
        new.origin = oldArguments.origin ∧
        [new.get? "a", new.get? "b", new.get? "c", new.get? Key.positionalArguments] = [some "1", some "kept", some "2,3", some "in"] := by
  intro first second
  have hfound : argumentsBetween.layer? LayerName.commandLine = some oldArguments := by decide +kernel
  have hexplicit : oldArguments.IsExplicit := ⟨_, rfl⟩
  have h : ∀ old, argumentsBetween.layer? LayerName.commandLine = some old → old.IsExplicit := by
    intro old hold
    rw [hfound] at hold
    exact Option.some.inj hold ▸ hexplicit
  obtain ⟨hself, hnext⟩ := layer_of_applications argumentsBetween first second h
  simp only [hfound] at hnext
  obtain ⟨ahead, behind, new, -, -, hnew, horigin, -, hget⟩ := hnext
  refine ⟨hfound, hexplicit, hself, new, hnew, horigin, ?_⟩
  simp only [hget]
  decide +kernel

end Arguments

end Ignition
