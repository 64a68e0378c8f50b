import Ignition.Config.Placeholder

/-!
# Look-ups and draws

Whatever numbers are drawn for finitely many look-ups, there are draws that hold them (`Draws.exists_drawn_eq`), and on from a step they are
those for the ways that begin with it (`Draws.drawn_behind`). Draws decide which random values there are, not which keys have one
(`Environment.get?_mapWays_eq_none_iff`). Where the same number is drawn at every look-up (`Environment.Steady`), and so where there are no
random values at all, it makes no difference where an environment is used (`Environment.toward_eq_self`).
-/

namespace Ignition

/-! ## Numbers that are drawn -/

namespace Draws

variable {draws : Draws} {change more : List Step → Option (List Step)} {step : Step} {way : List Step} {key : String}

/-- Look-ups may draw any numbers: there are draws that hold the numbers of finitely many of them. -/
theorem exists_drawn_eq (number : List Step → String → Nat) (lookups : List (List Step × String)) :
    ∃ draws : Draws, ∀ lookup ∈ lookups, draws.drawn lookup.1 lookup.2 = number lookup.1 lookup.2 := by
  refine ⟨{ table := lookups.map fun lookup => (lookup, number lookup.1 lookup.2), other := 0 }, fun lookup hl => ?_⟩
  have hfound : (lookups.map fun lookup => (lookup, number lookup.1 lookup.2)).lookup lookup = some (number lookup.1 lookup.2) := by
    induction lookups with
    | nil => cases hl
    | cons first lookups ih =>
      rw [List.map_cons, List.lookup_cons]
      by_cases heq : lookup = first
      · rw [heq, beq_self_eq_true]
      · rw [beq_false_of_ne heq]
        exact ih ((List.mem_cons.mp hl).resolve_left heq)
  rw [drawn, hfound, Option.getD_some]

/-- On from a step the numbers are those for the ways that begin with it. -/
theorem drawn_behind : (draws.mapWays (behind? step)).drawn way key = draws.drawn (step :: way) key := by
  obtain ⟨table, other⟩ := draws
  refine congrArg (Option.getD · other) ?_
  induction table with
  | nil => rfl
  | cons entry table ih =>
    obtain ⟨⟨former, asked⟩, n⟩ := entry
    simp only [mapWays] at ih ⊢
    cases former with
    | nil =>
      have hother : ((step :: way, key) == (([], asked) : List Step × String)) = false := beq_false_of_ne (by simp)
      rw [List.lookup_cons, hother]
      exact ih
    | cons first former =>
      by_cases hstep : first = step
      · subst hstep
        have hsame : ((first :: way, key) == (first :: former, asked)) = ((way, key) == (former, asked)) := by
          rw [Bool.eq_iff_iff]
          simp
        rw [List.filterMap_cons_some (b := ((former, asked), n)) (by simp [behind?]), List.lookup_cons, List.lookup_cons, hsame, ih]
      · have hother : ((step :: way, key) == (first :: former, asked)) = false := beq_false_of_ne (by simp [Ne.symm hstep])
        rw [List.filterMap_cons_none (by simp [behind?, hstep]), List.lookup_cons, hother]
        exact ih

/-- Ways that are changed twice are changed by the one change and then the other. -/
theorem mapWays_mapWays : (draws.mapWays change).mapWays more = draws.mapWays fun way => (change way).bind more := by
  simp only [mapWays, List.filterMap_filterMap, mk.injEq, and_true]
  refine congrArg (List.filterMap · draws.table) (funext fun entry => ?_)
  cases change entry.1.1 <;> rfl

/-- Where one number is drawn at every look-up, ways do not matter. -/
theorem mapWays_eq_self (h : draws.table = []) : draws.mapWays change = draws := by
  rw [mapWays, h, List.filterMap_nil, ← h]

end Draws

/-- A request has a value whatever is drawn for it. -/
theorem RandomRequest.value?_eq_none_iff {drawn : Nat} {key : String} :
    value? drawn key = none ↔ ofKey? key = none := by
  rw [value?, Option.map_eq_none_iff]

/-! ## Environments on the way -/

namespace Layer

variable {layer : Layer} {change : List Draws.Step → Option (List Draws.Step)} {key : String}

/-- Whether a layer answers with random values. -/
def isRandom (layer : Layer) : Bool :=
  match layer.source with
  | .random _ => true
  | .entries _ | .system _ => false

/-- A layer that draws the same number at every look-up. -/
def Steady (layer : Layer) : Prop :=
  ∀ draws, layer.source = .random draws → draws.table = []

/-- A layer without random values draws nothing. -/
theorem steady_of_isRandom (h : layer.isRandom = false) : layer.Steady := by
  intro draws hsource
  rw [isRandom, hsource] at h
  cases h

/-- Ways do not matter to a steady layer. -/
theorem Steady.mapWays_eq_self (h : layer.Steady) : layer.mapWays change = layer := by
  obtain ⟨name, origin, profile, source⟩ := layer
  cases source with
  | entries | system => rfl
  | random draws => simp only [mapWays, Source.mapWays, Draws.mapWays_eq_self (h draws rfl)]

/-- Ways decide nothing about which keys a layer answers. -/
theorem get?_mapWays_eq_none_iff : (layer.mapWays change).get? key = none ↔ layer.get? key = none := by
  obtain ⟨name, origin, profile, source⟩ := layer
  cases source with
  | entries | system => rfl
  | random draws => exact RandomRequest.value?_eq_none_iff.trans RandomRequest.value?_eq_none_iff.symm

end Layer

namespace Environment

variable {env : Environment} {layer : Layer} {change more : List Draws.Step → Option (List Draws.Step)} {step : Draws.Step}
  {key name : String}

/-- Ways decide nothing about which keys have a value. -/
theorem get?_mapWays_eq_none_iff : (env.mapWays change).get? key = none ↔ env.get? key = none := by
  simp only [get?, mapWays, List.findSome?_eq_none_iff, List.forall_mem_map, Layer.get?_mapWays_eq_none_iff]

/-- A key that has a value has one wherever it is looked up. -/
theorem exists_get?_toward {value : String} (h : env.get? key = some value) (step : Draws.Step) :
    ∃ value, (env.toward step).get? key = some value :=
  Option.ne_none_iff_exists'.mp fun hnone => nomatch h.symm.trans (get?_mapWays_eq_none_iff.mp hnone)

/-- Ways that are changed twice are changed by the one change and then the other. -/
theorem mapWays_mapWays : (env.mapWays change).mapWays more = env.mapWays fun way => (change way).bind more := by
  have hlayer : ∀ layer : Layer, (layer.mapWays change).mapWays more = layer.mapWays fun way => (change way).bind more := by
    rintro ⟨name, origin, profile, source⟩
    cases source with
    | entries | system => rfl
    | random draws => simp only [Layer.mapWays, Source.mapWays, Draws.mapWays_mapWays]
  simp only [mapWays, List.map_map, Function.comp_def, hlayer]

/-- An environment that draws the same number at every look-up. -/
class Steady (env : Environment) : Prop where
  /-- So does each of its layers. -/
  layer_steady : ∀ layer ∈ env.layers, layer.Steady

/-- An environment without random values draws nothing. -/
theorem steady_of_isRandom (h : ∀ layer ∈ env.layers, layer.isRandom = false) : env.Steady :=
  ⟨fun layer hl => Layer.steady_of_isRandom (h layer hl)⟩

/-- Ways do not matter to a steady environment. -/
theorem mapWays_eq_self [h : env.Steady] : env.mapWays change = env := by
  have hlayers : env.layers.map (·.mapWays change) = env.layers.map id :=
    List.map_congr_left fun layer hl => (h.layer_steady layer hl).mapWays_eq_self
  rw [mapWays, hlayers, List.map_id]

/-- It makes no difference where a steady environment is used. -/
theorem toward_eq_self [env.Steady] : env.toward step = env :=
  mapWays_eq_self

end Environment

end Ignition
