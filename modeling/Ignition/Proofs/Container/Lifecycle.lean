import Ignition.Container.Memory
import Mathlib.Data.List.Induction

/-!
# The life of a container

What a call on a container in memory can do, said once for its state (`ContainerCall.Effect`). A container is made open and empty, is
refreshed at most once, and is closed by the first call to close it, which lets go of its singletons and takes its hook down; from then on
it refuses everything but to keep exit codes and to be closed once more. Calls that it refuses leave the state as it was, all of it. From
this it follows what any sequence of calls leaves in the state (`lifecycle_of_calls`). All handles on a container are one value here, since
what changes is in the state that they share; so it makes no difference which of them a call goes through.
-/

namespace Ignition

variable {σ : Type}

/-- A part of a state that holds what was put in. -/
structure Part.Lawful {τ : Type} (part : Part σ τ) : Prop where
  /-- What was put in is there. -/
  get_set : ∀ value state, part.get (part.set value state) = value
  /-- Putting in what is there changes nothing. -/
  set_get : ∀ state, part.set (part.get state) state = state

/-- A call that may change a container. -/
inductive ContainerCall where
  /-- Holds a value under a name. -/
  | register (name : String) (value : Singleton)
  /-- Loads sources. -/
  | load (sources : List String)
  /-- Makes the container active. -/
  | refresh
  /-- Puts a shutdown hook in place. -/
  | installHook
  /-- Keeps an exit code. -/
  | publish (code : Int)
  /-- Closes the container. -/
  | close
deriving DecidableEq, Repr

namespace ContainerCall

/-- The call on a container. -/
def makeOn (container : Container σ) : ContainerCall → Action σ (Except Failure Unit)
  | register name value => container.register name value
  | load sources => container.load sources
  | refresh => container.refresh
  | installHook => container.installHook
  | publish code => fun state =>
    let ((), state, told) := container.publish code state
    (.ok (), state, told)
  | close => container.close

/-- Calls on a container, one after the other: each with its answer, and the state behind them. -/
def makeAllOn (container : Container σ) (calls : List ContainerCall) (state : σ) :
    List (ContainerCall × Except Failure Unit) × σ :=
  calls.foldl (fun (history, state) call =>
    let (answer, state, _) := call.makeOn container state
    (history ++ [(call, answer)], state)) ([], state)

/-- The calls that were not refused. -/
def granted (history : List (ContainerCall × Except Failure Unit)) : List ContainerCall :=
  history.filterMap fun
    | (call, .ok ()) => some call
    | (_, .error _) => none

/-- Whether a closed container refuses the call. -/
def needsOpen : ContainerCall → Bool
  | register _ _ | load _ | refresh | installHook => true
  | publish _ | close => false

/-- The value that a call registers under a name. -/
def valueUnder? (name : String) : ContainerCall → Option Singleton
  | register other value => if other = name then some value else none
  | load _ | refresh | installHook | publish _ | close => none

/-- The sources that a call loads. -/
def sources : ContainerCall → List String
  | load sources => sources
  | register _ _ | refresh | installHook | publish _ | close => []

/-- The exit code that a call publishes. -/
def code? : ContainerCall → Option Int
  | publish code => some code
  | register _ _ | load _ | refresh | installHook | close => none

/-! ## What a call can do -/

/-- What a call does to the state of a container in memory, or why it is refused. -/
def change (state : ContainerState) : ContainerCall → Except ContainerError ContainerChange
  | register name value => state.register name value
  | load sources => state.load sources
  | refresh => state.refresh
  | installHook => state.installHook
  | publish code => .ok (state.publish code)
  | close => .ok state.close

/-- What a call can do to the state of a container in memory. -/
inductive Effect (state : ContainerState) : ContainerCall → Except ContainerError ContainerState → Prop where
  | closedAlready {call : ContainerCall} :
      state.closed = true → call.needsOpen = true → Effect state call (.error .closed)
  | nameTaken {name : String} (value : Singleton) : state.closed = false → state.singleton? name ≠ none →
      Effect state (.register name value) (.error (.duplicateSingleton name))
  | activeAlready : state.closed = false → state.active = true → Effect state .refresh (.error .alreadyRefreshed)
  | registered {name : String} (value : Singleton) : state.closed = false → state.singleton? name = none →
      Effect state (.register name value) (.ok { state with singletons := state.singletons ++ [(name, value)] })
  | loaded (sources : List String) : state.closed = false →
      Effect state (.load sources) (.ok { state with sources := state.sources ++ sources })
  | refreshed : state.closed = false → state.active = false → Effect state .refresh (.ok { state with active := true })
  | hooked : state.closed = false → Effect state .installHook (.ok { state with hasHook := true })
  | published (code : Int) : Effect state (.publish code) (.ok { state with published := state.published ++ [code] })
  | closed : state.closed = false →
      Effect state .close (.ok { state with active := false, closed := true, singletons := [], hasHook := false })
  | closedAgain : state.closed = true → Effect state .close (.ok state)

variable {state next : ContainerState} {call : ContainerCall} {error : ContainerError} {name : String}

theorem whileOpen_of_closed {change : Except ContainerError ContainerChange} (h : state.closed = true) :
    state.whileOpen change = .error .closed := if_pos h

theorem whileOpen_of_open {change : Except ContainerError ContainerChange} (h : state.closed = false) :
    state.whileOpen change = change := if_neg (Bool.eq_false_iff.mp h)

/-- A call does one of these things. -/
theorem effect (state : ContainerState) (call : ContainerCall) : Effect state call ((call.change state).map (·.state)) := by
  cases hclosed : state.closed with
  | true =>
    cases call with
    | publish code => exact .published code
    | close =>
      rw [change, ContainerState.close, if_pos hclosed]
      exact .closedAgain hclosed
    | register | load | refresh | installHook =>
      have hrefused : ∀ change, (state.whileOpen change).map (·.state) = .error .closed := fun change => by
        rw [whileOpen_of_closed hclosed]
        rfl
      simp only [change, ContainerState.register, ContainerState.load, ContainerState.refresh, ContainerState.installHook, hrefused]
      exact .closedAlready hclosed rfl
  | false =>
    cases call with
    | register name value =>
      rw [change, ContainerState.register, whileOpen_of_open hclosed]
      cases hheld : state.singleton? name with
      | none => exact .registered value hclosed hheld
      | some held => exact .nameTaken value hclosed (hheld ▸ Option.some_ne_none held)
    | load sources =>
      rw [change, ContainerState.load, whileOpen_of_open hclosed]
      exact .loaded sources hclosed
    | refresh =>
      rw [change, ContainerState.refresh, whileOpen_of_open hclosed]
      by_cases hactive : state.active = true
      · rw [if_pos hactive]
        exact .activeAlready hclosed hactive
      · rw [if_neg hactive]
        exact .refreshed hclosed (Bool.eq_false_iff.mpr hactive)
    | installHook =>
      have hhooked : Effect state .installHook (.ok { state with hasHook := true }) := .hooked hclosed
      rw [change, ContainerState.installHook, whileOpen_of_open hclosed]
      by_cases hhook : state.hasHook = true
      · rw [if_pos hhook]
        rwa [← hhook] at hhooked
      · rw [if_neg hhook]
        exact hhooked
    | publish code => exact .published code
    | close =>
      rw [change, ContainerState.close, if_neg (Bool.eq_false_iff.mp hclosed)]
      exact .closed hclosed

namespace Effect

/-- To close a container and to publish to it is never refused; a value is refused if the container is closed or the name taken. -/
theorem of_error (h : Effect state call (.error error)) : call ≠ .close ∧ call.code? = none ∧
    (state.closed = false → ∀ name, call.valueUnder? name ≠ none → state.singleton? name ≠ none) := by
  cases h with
  | closedAlready hclosed hopen => cases call <;> simp_all [needsOpen, code?]
  | nameTaken value hclosed hheld =>
    refine ⟨nofun, rfl, fun _ other hvalue => ?_⟩
    simp only [valueUnder?, ne_eq, ite_eq_right_iff, reduceCtorEq, imp_false, Decidable.not_not] at hvalue
    exact hvalue ▸ hheld
  | activeAlready => exact ⟨nofun, rfl, fun _ _ hvalue => absurd rfl hvalue⟩

/-- After a call a container is closed exactly if it was closed before or is closed by this call. -/
theorem closed_iff (h : Effect state call (.ok next)) : next.closed = true ↔ state.closed = true ∨ call = .close := by
  cases h <;> simp_all

/-- A closed container is active no more. -/
theorem active_iff (h : Effect state call (.ok next)) (hclosed : state.closed = true → state.active = false) :
    next.active = true ↔ (state.active = true ∨ call = .refresh) ∧ call ≠ .close := by
  cases h <;> simp_all

/-- What is refreshed was neither active nor closed. -/
theorem fresh_of_refresh (h : Effect state .refresh (.ok next)) : state.closed = false ∧ state.active = false := by
  cases h with
  | refreshed hclosed hactive => exact ⟨hclosed, hactive⟩

/-- A call that is granted adds its sources. -/
theorem sources_eq (h : Effect state call (.ok next)) : next.sources = state.sources ++ call.sources := by
  cases h <;> simp [sources]

/-- A call that is granted publishes its code. -/
theorem published_eq (h : Effect state call (.ok next)) : next.published = state.published ++ call.code?.toList := by
  cases h <;> simp [code?]

/-- A closed container stays empty. -/
theorem emptied (h : Effect state call (.ok next)) (hempty : state.closed = true → state.singletons = [] ∧ state.hasHook = false) :
    next.closed = true → next.singletons = [] ∧ next.hasHook = false := by
  cases h with
  | published => exact hempty
  | closed => exact fun _ => ⟨rfl, rfl⟩
  | closedAgain => exact hempty
  | registered _ hclosed | loaded _ hclosed | refreshed hclosed | hooked hclosed =>
    exact fun h => absurd (hclosed.symm.trans h) Bool.false_ne_true

/-- A name has its value from before, or else the one it is given; closing takes all away. -/
theorem singleton?_eq (h : Effect state call (.ok next)) (hempty : state.closed = true → state.singletons = []) (name : String) :
    next.singleton? name = if call = .close then none else (state.singleton? name).or (call.valueUnder? name) := by
  cases h with
  | @registered other value hclosed hnew =>
    simp only [reduceCtorEq, if_false, ContainerState.singleton?, List.find?_append, valueUnder?]
    cases state.singletons.find? (·.1 = name) with
    | some found => rfl
    | none => by_cases hsame : other = name <;> simp [hsame]
  | closed => rfl
  | closedAgain hclosed =>
    rw [if_pos rfl, ContainerState.singleton?, hempty hclosed]
    rfl
  | loaded | refreshed | hooked | published =>
    simp only [reduceCtorEq, if_false, valueUnder?, Option.or_none]
    rfl

/-- A closed container takes no value. -/
theorem valueUnder?_eq_none (h : Effect state call (.ok next)) (hclosed : state.closed = true) (name : String) :
    call.valueUnder? name = none := by
  cases h with
  | registered value hopen => exact absurd (hopen.symm.trans hclosed) Bool.false_ne_true
  | _ => rfl

end Effect

/-! ## What a sequence of calls leaves -/

/-- What calls, of which some were granted, leave in a state that was open and empty before. -/
structure Lived (calls granted : List ContainerCall) (state : ContainerState) : Prop where
  /-- At most one call to refresh was granted. -/
  refreshes : granted.count .refresh ≤ 1
  /-- The container is active from that call on until it is closed. -/
  active : state.active = true ↔ .refresh ∈ granted ∧ .close ∉ calls
  /-- It is closed by the first call to close it, for good. -/
  closed : state.closed = true ↔ .close ∈ calls
  /-- Then it holds neither singletons nor a hook. -/
  emptied : state.closed = true → state.singletons = [] ∧ state.hasHook = false
  /-- Until then a name has the first value that it was given. -/
  singletons : ∀ name, state.singleton? name = if .close ∈ calls then none else calls.findSome? (valueUnder? name)
  /-- The sources are those that were loaded, one behind the other. -/
  sources : state.sources = granted.flatMap sources
  /-- The exit codes are those that were published. -/
  published : state.published = calls.filterMap code?

/-- A new container has lived through nothing. -/
theorem lived_nil : Lived [] [] {} where
  refreshes := Nat.zero_le 1
  active := by simp
  closed := by simp
  emptied := nofun
  singletons _ := rfl
  sources := rfl
  published := rfl

section Lived

variable {calls granted : List ContainerCall}

/-- A closed container is not active. -/
theorem Lived.inactive (h : Lived calls granted state) (hclosed : state.closed = true) : state.active = false :=
  Bool.eq_false_iff.mpr fun hactive => (h.active.mp hactive).2 (h.closed.mp hclosed)

/-- A call to refresh that is granted is the first one that is, and the container was not closed before. -/
theorem Lived.first_refresh (h : Lived calls granted state) (heffect : Effect state .refresh (.ok next)) :
    .refresh ∉ granted ∧ .close ∉ calls := by
  obtain ⟨hopen, hinactive⟩ := heffect.fresh_of_refresh
  have hclose : .close ∉ calls := fun hclose => Bool.false_ne_true (hopen.symm.trans (h.closed.mpr hclose))
  exact ⟨fun hrefresh => Bool.false_ne_true (hinactive.symm.trans (h.active.mpr ⟨hrefresh, hclose⟩)), hclose⟩

/-- What one more call leaves that is granted. -/
theorem Lived.grant (h : Lived calls granted state) (heffect : Effect state call (.ok next)) :
    Lived (calls ++ [call]) (granted ++ [call]) next where
  refreshes := by
    by_cases hrefresh : call = .refresh
    · subst hrefresh
      rw [List.count_append, List.count_eq_zero_of_not_mem (h.first_refresh heffect).1]
      exact Nat.le_refl 1
    · have hnone : .refresh ∉ [call] := by simpa using Ne.symm hrefresh
      rw [List.count_append, List.count_eq_zero_of_not_mem hnone]
      exact h.refreshes
  active := by
    rw [heffect.active_iff h.inactive, h.active]
    simp only [List.mem_append, List.mem_singleton, not_or]
    constructor
    · rintro ⟨⟨hrefresh, hclose⟩ | rfl, hne⟩
      · exact ⟨Or.inl hrefresh, hclose, Ne.symm hne⟩
      · exact ⟨Or.inr rfl, (h.first_refresh heffect).2, Ne.symm hne⟩
    · rintro ⟨hrefresh | rfl, hclose, hne⟩
      · exact ⟨Or.inl ⟨hrefresh, hclose⟩, Ne.symm hne⟩
      · exact ⟨Or.inr rfl, Ne.symm hne⟩
  closed := by
    rw [heffect.closed_iff, h.closed, List.mem_append, List.mem_singleton, eq_comm]
  emptied := heffect.emptied h.emptied
  singletons name := by
    rw [heffect.singleton?_eq (fun hclosed => (h.emptied hclosed).1) name, h.singletons, List.findSome?_append]
    by_cases hclose : call = .close
    · subst hclose
      simp
    · rw [if_neg hclose]
      by_cases hclosed : .close ∈ calls
      · rw [if_pos hclosed, if_pos (List.mem_append_left _ hclosed), heffect.valueUnder?_eq_none (h.closed.mpr hclosed)]
        rfl
      · rw [if_neg hclosed, if_neg (by simpa using ⟨hclosed, Ne.symm hclose⟩)]
        cases hvalue : call.valueUnder? name <;> simp [hvalue]
  sources := by
    rw [heffect.sources_eq, h.sources, List.flatMap_append, List.flatMap_singleton]
  published := by
    rw [heffect.published_eq, h.published, List.filterMap_append]
    cases call <;> rfl

/-- A call that is refused leaves what was there. -/
theorem Lived.refuse (h : Lived calls granted state) (heffect : Effect state call (.error error)) :
    Lived (calls ++ [call]) granted state := by
  obtain ⟨hclose, hcode, hvalue⟩ := heffect.of_error
  have hmem : .close ∈ calls ++ [call] ↔ .close ∈ calls := by simp [Ne.symm hclose]
  refine ⟨h.refreshes, ?_, ?_, h.emptied, fun name => ?_, h.sources, ?_⟩
  · rw [hmem]
    exact h.active
  · rw [hmem]
    exact h.closed
  · have hheld := h.singletons name
    simp only [hmem, List.findSome?_append] at hheld ⊢
    by_cases hclosed : .close ∈ calls
    · rw [hheld, if_pos hclosed, if_pos hclosed]
    · have hopen : state.closed = false := Bool.eq_false_iff.mpr fun hshut => hclosed (h.closed.mp hshut)
      rw [if_neg hclosed] at hheld ⊢
      rw [hheld]
      cases hfound : calls.findSome? (valueUnder? name) with
      | some value => rfl
      | none =>
        have hnone : call.valueUnder? name = none :=
          Classical.byContradiction fun hne => hvalue hopen name hne (hheld.trans hfound)
        simp [hnone]
  · rw [h.published, List.filterMap_append]
    simp [hcode]

end Lived

end ContainerCall

/-! ## Calls on a container -/

namespace MemoryContainer

open ContainerCall

section Calls

variable {store : Store σ} {number : Nat} {parts : ContainerParts σ} {environment : Environment} {state : σ}
  {calls : List ContainerCall} {call : ContainerCall}

/-- A call on a container in memory changes the state of this container, or is refused. -/
theorem makeOn_container : call.makeOn (container store number parts environment) state =
    match call.change (stateOf store number state) with
    | .ok change => (.ok (), commit store number change state, change.events.map .event)
    | .error error => (.error { fault := .container error }, state, []) := by
  cases call <;> rfl

/-- A call that is refused leaves all there is, and tells nothing. -/
theorem makeOn_of_refused {failure : Failure}
    (h : (call.makeOn (container store number parts environment) state).1 = .error failure) :
    call.makeOn (container store number parts environment) state = (.error failure, state, []) := by
  rw [makeOn_container] at h ⊢
  cases hchange : call.change (stateOf store number state) with
  | ok change => rw [hchange] at h; cases h
  | error error => rw [hchange] at h; cases h; rfl

/-- Where the state of a container has its place, a change puts the new state there. -/
theorem stateOf_commit (hstore : store.Lawful) (hplace : number < (store.get state).length) (change : ContainerChange) :
    stateOf store number (commit store number change state) = change.state := by
  rw [stateOf, commit, hstore.get_set, List.getElem?_set_self hplace]
  rfl

/-- The state of a container keeps its place. -/
theorem length_commit (hstore : store.Lawful) (change : ContainerChange) :
    (store.get (commit store number change state)).length = (store.get state).length := by
  rw [commit, hstore.get_set, List.length_set]

/-- A container that is made has a place for its state, which is open and empty. -/
theorem stateOf_made (hstore : store.Lawful) :
    stateOf store (store.get state).length (store.set (store.get state ++ [default]) state) = {} := by
  rw [stateOf, hstore.get_set, List.getElem?_append_right (Nat.le_refl _), Nat.sub_self]
  rfl

/-- Calls and one more behind them are made one after the other. -/
theorem makeAllOn_concat {made : Container σ} : makeAllOn made (calls ++ [call]) state =
    ((makeAllOn made calls state).1 ++ [(call, (call.makeOn made (makeAllOn made calls state).2).1)],
      (call.makeOn made (makeAllOn made calls state).2).2.1) := by
  rw [makeAllOn, List.foldl_append]
  rfl

/-- Calls on a container that is open and empty leave in its state what they can leave. -/
theorem lived_makeAllOn (hstore : store.Lawful) (hplace : number < (store.get state).length)
    (hfresh : stateOf store number state = {}) (calls : List ContainerCall) :
    let outcome := makeAllOn (container store number parts environment) calls state
    number < (store.get outcome.2).length ∧ Lived calls (granted outcome.1) (stateOf store number outcome.2) := by
  intro outcome
  subst outcome
  induction calls using List.reverseRecOn with
  | nil => exact ⟨hplace, hfresh ▸ lived_nil⟩
  | append_singleton calls call ih =>
    rw [makeAllOn_concat]
    generalize makeAllOn (container store number parts environment) calls state = before at ih ⊢
    obtain ⟨history, before⟩ := before
    obtain ⟨hplace, hlived⟩ := ih
    have heffect := effect (stateOf store number before) call
    simp only [makeOn_container]
    cases hchange : call.change (stateOf store number before) with
    | error error =>
      rw [hchange] at heffect
      simp only [granted, List.filterMap_append, List.filterMap_cons, List.filterMap_nil, List.append_nil]
      exact ⟨hplace, hlived.refuse heffect⟩
    | ok change =>
      rw [hchange] at heffect
      simp only [granted, List.filterMap_append, List.filterMap_cons, List.filterMap_nil, length_commit hstore,
        stateOf_commit hstore hplace]
      exact ⟨hplace, hlived.grant heffect⟩

/-- To put the state of a container where it is already changes nothing. -/
theorem commit_same (hstore : store.Lawful) : commit store number { state := stateOf store number state } state = state := by
  have hsame : (store.get state).set number (stateOf store number state) = store.get state := by
    by_cases hplace : number < (store.get state).length
    · have hheld : stateOf store number state = (store.get state)[number] := by
        rw [stateOf, List.getElem?_eq_getElem hplace]
        rfl
      rw [hheld, List.set_getElem_self]
    · exact List.set_eq_of_length_le (Nat.le_of_not_lt hplace)
  rw [commit, hsame, hstore.set_get]

/-- A container that is closed refuses to be changed, and to close it once more does nothing. -/
theorem makeOn_of_closed (hstore : store.Lawful) (hclosed : (stateOf store number state).closed = true) :
    (call.needsOpen = true → call.makeOn (container store number parts environment) state =
      (.error { fault := .container .closed }, state, [])) ∧
      ContainerCall.close.makeOn (container store number parts environment) state = (.ok (), state, []) := by
  constructor
  · intro hopen
    rw [makeOn_container]
    cases call with
    | publish | close => cases hopen
    | register | load | refresh | installHook =>
      simp only [change, ContainerState.register, ContainerState.load, ContainerState.refresh, ContainerState.installHook,
        whileOpen_of_closed hclosed]
  · have hsame : (stateOf store number state).close = { state := stateOf store number state } := if_pos hclosed
    rw [makeOn_container]
    simp only [change, hsame, List.map_nil, commit_same hstore]

end Calls

/-- Of a container that was made in memory, whichever calls are made on it afterwards, and in whichever order:
1. at most one call to refresh is granted, and the container is active exactly from that call on until it is closed;
2. it is closed by the first call to close it, for good, and then it holds neither singletons nor a hook, refuses everything but to keep
   exit codes and to be closed, and to close it once more does nothing;
3. a name has the first value that was registered under it until the container is closed, and no value then;
4. the sources are those of the calls to load that were granted, one behind the other, and the exit codes are those that were published,
   also once it is closed;
5. a call that is refused leaves all there is as it was, and tells nothing. -/
theorem lifecycle_of_calls (store : Store σ) (hstore : store.Lawful) (parts : ContainerParts σ) (environment : Environment) (start : σ) :
    ∃ made fresh, factory store parts environment start = (.ok made, fresh, []) ∧ ∀ calls : List ContainerCall,
      let after := (makeAllOn made calls fresh).2
      let granted := granted (makeAllOn made calls fresh).1
      let held := stateOf store (store.get start).length after
      (granted.count .refresh ≤ 1 ∧ (made.isActive after = true ↔ .refresh ∈ granted ∧ .close ∉ calls)) ∧
        ((held.closed = true ↔ .close ∈ calls) ∧
          (.close ∈ calls → held.singletons = [] ∧ held.hasHook = false ∧
            (∀ call : ContainerCall, call.needsOpen = true →
              call.makeOn made after = (.error { fault := .container .closed }, after, [])) ∧
            made.close after = (.ok (), after, []))) ∧
        (∀ name, made.singleton? name after = if .close ∈ calls then none else calls.findSome? (valueUnder? name)) ∧
        (held.sources = granted.flatMap sources ∧ held.published = calls.filterMap code?) ∧
        ∀ (call : ContainerCall) (failure : Failure), (call.makeOn made after).1 = .error failure →
          call.makeOn made after = (.error failure, after, []) := by
  refine ⟨_, _, rfl, fun calls => ?_⟩
  have hplace : (store.get start).length < (store.get (store.set (store.get start ++ [default]) start)).length := by
    rw [hstore.get_set, List.length_append]
    exact Nat.lt_succ_self _
  obtain ⟨-, hlived⟩ := @lived_makeAllOn σ store _ parts environment _ hstore hplace (stateOf_made hstore) calls
  refine ⟨⟨hlived.refreshes, ?_⟩, ⟨hlived.closed, fun hclose => ?_⟩, hlived.singletons, ⟨hlived.sources, hlived.published⟩,
    fun call failure hrefused => makeOn_of_refused hrefused⟩
  · rw [← hlived.active]
    simp only [container, ContainerState.isActive, Bool.and_eq_true, Bool.not_eq_true']
    refine and_iff_left_of_imp fun hactive => ?_
    exact Bool.eq_false_iff.mpr fun hclosed => (hlived.active.mp hactive).2 (hlived.closed.mp hclosed)
  · have hclosed := hlived.closed.mpr hclose
    obtain ⟨hempty, hunhooked⟩ := hlived.emptied hclosed
    exact ⟨hempty, hunhooked, fun call => (makeOn_of_closed hstore hclosed).1,
      (@makeOn_of_closed σ store _ parts environment _ .close hstore hclosed).2⟩

/-- A state that holds the states of containers and nothing else. -/
def wholeStore : Store (List ContainerState) := ⟨id, fun states _ => states⟩

/-- A name is registered twice, a container refreshed twice and closed, and then told of more sources and of an exit code. -/
theorem lifecycle_of_calls_wholeStore : wholeStore.Lawful ∧
    ∃ made fresh, factory wholeStore {} {} [] = (.ok made, fresh, []) ∧
      let before : List ContainerCall := [.register "a" (.text "1"), .register "a" (.text "2"), .refresh, .load ["s"], .refresh]
      let calls := before ++ [.close, .load ["t"], .publish 3]
      made.singleton? "a" (makeAllOn made before fresh).2 = some (.text "1") ∧
        made.singleton? "a" (makeAllOn made calls fresh).2 = none ∧
        (stateOf wholeStore 0 (makeAllOn made calls fresh).2).published = [3] := by
  have hstore : wholeStore.Lawful := ⟨fun _ _ => rfl, fun _ => rfl⟩
  obtain ⟨made, fresh, hmade, h⟩ := lifecycle_of_calls wholeStore hstore {} {} []
  refine ⟨hstore, made, fresh, hmade, ?_⟩
  obtain ⟨-, -, hheld, -⟩ := h [.register "a" (.text "1"), .register "a" (.text "2"), .refresh, .load ["s"], .refresh]
  obtain ⟨-, -, hgone, ⟨-, hpublished⟩, -⟩ := h ([.register "a" (.text "1"), .register "a" (.text "2"), .refresh, .load ["s"],
    .refresh] ++ [.close, .load ["t"], .publish 3])
  exact ⟨(hheld "a").trans (by decide), (hgone "a").trans (by decide), hpublished.trans (by decide)⟩

end MemoryContainer

end Ignition
