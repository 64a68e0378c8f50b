import Ignition.Proofs.Discovery.Limits
import Ignition.Proofs.Discovery.Names
import Mathlib.Order.Filter.AtTopBot.Basic
import Mathlib.Order.Filter.Finite

/-!
# Searches end

The passes of a search come to an end, however files activate and include further profiles: a turn either makes the pass for a profile
that has had none, of which there are finitely many (`finite_mayMeet`), or leaves fewer passes waiting (`Turn.rank_lt`). So the number
of passes does not keep a search from ending. Only an expansion that never ends does (`ends_or_endless`), and there are such
expansions: the body of a placeholder may come to name a missing key with the placeholder itself for its fallback, and the check for
circular references, which looks at keys with a value, does not see that (`not_ends_selfRestoring`).
-/

namespace Ignition

namespace Discovery

open Relation (ReflTransGen)

section Turns

variable {plan : SearchPlan} {resources : Resources} {env : Environment} {p q : Progress}

/-! ## Turns -/

/-- A move leaves the profiles processed as they are. -/
theorem Move.processed (h : Move plan resources p q) : q.processed = p.processed := by
  cases h with
  | noted => rfl
  | lookedUp => rfl
  | accepted _ haccept =>
    obtain ⟨active, included, rfl⟩ := Progress.accept_eq_take haccept
    exact Progress.processed_take

/-- Within a pass no profile comes to be processed. -/
theorem processed_of_moves (h : ReflTransGen (Move plan resources) p q) : q.processed = p.processed := by
  induction h with
  | refl => rfl
  | tail _ hmove ih => rw [hmove.processed, ih]

/-- What is left of a search that may meet some number of profiles: the profiles without a pass, and then the passes that wait. -/
def rank (total : Nat) (p : Progress) : Nat × Nat :=
  (total - p.processed.names.length, p.waiting.length)

/-- A turn leaves less of a search. -/
theorem Turn.rank_lt {total : Nat} (h : Turn plan resources p q) (hwaiting : none ∉ p.waiting)
    (htotal : q.processed.names.length ≤ total) : Prod.Lex (· < ·) (· < ·) (rank total q) (rank total p) := by
  cases h with
  | unfiltered hw _ => exact absurd (hw ▸ List.mem_cons_self) hwaiting
  | skipped hw _ =>
    refine Prod.Lex.right _ ?_
    rw [hw]
    exact Nat.lt_succ_self _
  | @filtered q profile rest hw hnew hvisits =>
    have hprocessed : q.processed = p.processed := (processed_of_moves (moves_of_visits hvisits)).trans rfl
    have hlength : (q.processed.insert profile).names.length = p.processed.names.length + 1 := by
      rw [hprocessed, ProfileSet.names_insert_of_notMem (ProfileSet.contains_eq_false_iff.mp hnew)]
      simp
    refine Prod.Lex.left _ _ ?_
    simp only [hlength] at htotal ⊢
    omega

/-- Some number of turns is enough if it is from wherever the next turn leads. -/
theorem exists_turns_of_next (hnext : ∀ q, Turn plan resources p q →
      ∃ left, ∀ limit, Avoids ConfigError.isTooManyPasses ((passes plan resources limit left).run.run q).1) :
    ∃ left, ∀ limit, Avoids ConfigError.isTooManyPasses ((passes plan resources limit left).run.run p).1 := by
  by_cases hw : p.waiting = []
  · refine ⟨0, fun limit => ?_⟩
    rw [run_passes_zero, if_pos hw]
    exact avoids_ok ()
  cases hturn : (turn plan resources p.processed p.waiting).run.run p with
  | mk result q =>
    cases result with
    | error error =>
      refine ⟨1, fun limit => ?_⟩
      rw [run_passes_succ, if_neg hw, run_bind, hturn]
      exact avoids_error_iff.mpr (turn_fails hturn).isTooManyPasses
    | ok =>
      obtain ⟨left, hleft⟩ := hnext q (turn_ok hw hturn)
      refine ⟨left + 1, fun limit => ?_⟩
      rw [run_passes_succ, if_neg hw, run_bind, hturn]
      exact hleft limit

/-- Between two passes some number of turns is enough. -/
theorem exists_turns (hfinite : (plan.mayMeet resources env).Finite) (p : Progress)
    (h : Attributed env none p ∧ Sourced env plan resources none p) :
    ∃ left, ∀ limit, Avoids ConfigError.isTooManyPasses ((passes plan resources limit left).run.run p).1 := by
  have hkept := (attributed_kept env plan resources).and (sourced_kept env plan resources)
  have hwf : WellFounded (InvImage (Prod.Lex (· < ·) (· < ·)) (rank hfinite.toFinset.card)) :=
    InvImage.wf _ (WellFounded.prod_lex Nat.lt_wfRel.wf Nat.lt_wfRel.wf)
  induction p using hwf.induction with
  | h p ih =>
    refine exists_turns_of_next fun q hturn => ?_
    have hq := hkept.turn hturn h
    exact ih q (hturn.rank_lt (hkept.waiting h) (hq.1.processed_le hq.2 hfinite)) hq

/-- From the beginning of a search some number of turns is enough. -/
theorem exists_turns_start (hfinite : (plan.mayMeet resources env).Finite) (h : Progress.start env = .ok p) :
    ∃ left, ∀ limit, Avoids ConfigError.isTooManyPasses ((passes plan resources limit left).run.run p).1 := by
  have hkept := (attributed_kept env plan resources).and (sourced_kept env plan resources)
  obtain ⟨rest, hrest, hattributed⟩ := attributed_start h
  obtain ⟨rest', hrest', hsourced⟩ := @sourced_start env plan resources p h
  cases hrest.symm.trans hrest'
  exact exists_turns_of_next fun q hturn => exists_turns hfinite q (hkept.first hrest ⟨hattributed, hsourced⟩ hturn)

end Turns

/-! ## Searches -/

section Search

variable {discovery : Discovery} {resources : Resources} {env : Environment}

/-- The number of passes does not keep a search from ending. -/
theorem exists_limit (hsteady : env.Steady) (hformats : discovery.formats.Limited) (htexts : {text | resources.Holds text}.Finite)
    (depth : Nat) :
    ∃ limit, ∀ more, limit ≤ more → Avoids ConfigError.isTooManyPasses (discovery.within depth more resources env).result := by
  cases hplan : discovery.plan (env.deepen depth) with
  | error fault =>
    refine ⟨0, fun more _ => ?_⟩
    rw [within_of_plan_error hplan]
    exact avoids_error_iff.mpr (plan_avoids (fun _ _ _ _ _ _ => rfl) fault hplan)
  | ok plan =>
    cases hstart : Progress.start (env.deepen depth) with
    | error fault =>
      refine ⟨0, fun more _ => ?_⟩
      rw [within_of_start_error hplan hstart]
      exact avoids_error_iff.mpr (Progress.start_avoids (fun _ => rfl) (fun _ _ _ _ _ _ => rfl) fault hstart)
    | ok start =>
      rw [← formats_of_plan hplan] at hformats
      have hdeepened : (env.deepen depth).Steady := ⟨hsteady.layer_steady⟩
      obtain ⟨left, hleft⟩ := exists_turns_start (SearchPlan.finite_mayMeet hdeepened hformats htexts) hstart
      refine ⟨left, fun more hmore => ?_⟩
      rw [within_of_start hplan hstart, avoids_conclude_iff, passes_of_le hmore (hleft left)]
      exact hleft left

/-- A search ends if the limit on the depth of expansions does not end it, however many passes it may make. -/
theorem ends_iff_avoids (hsteady : env.Steady) (hformats : discovery.formats.Limited) (htexts : {text | resources.Holds text}.Finite) :
    discovery.Ends resources env ↔
      ∃ depth, ∀ limit, Avoids ConfigError.isTooDeep (discovery.within depth limit resources env).result := by
  rw [ends_iff_exists]
  constructor
  · rintro ⟨depth, limit, h⟩
    obtain ⟨hdeep, hpasses⟩ := avoids_isLimit_iff.mp h
    refine ⟨depth, fun more error herror => ?_⟩
    rcases le_total limit more with hle | hle
    · rw [within_of_limit_le hle hpasses] at herror
      exact hdeep error herror
    · -- With fewer passes a search can end at such a fault only if it does so with more of them.
      by_contra hfault
      have hpasses' : Avoids ConfigError.isTooManyPasses (discovery.within depth more resources env).result := by
        rw [herror, avoids_error_iff]
        exact isTooManyPasses_of_isTooDeep (Bool.eq_true_of_not_eq_false hfault)
      rw [← within_of_limit_le hle hpasses'] at herror
      exact hfault (hdeep error herror)
  · rintro ⟨depth, hdeep⟩
    obtain ⟨limit, hpasses⟩ := exists_limit hsteady hformats htexts depth
    exact ⟨depth, limit, avoids_isLimit_iff.mpr ⟨hdeep limit, hpasses limit le_rfl⟩⟩

end Search

/-! ## Expansions -/

/-- The lists that a search may expand, each with the environment that it is expanded in: those of the environment of the search, and
those of the layers that it may read. -/
inductive MayExpand (discovery : Discovery) (resources : Resources) (env : Environment) : Environment → String → Prop where
  | ofEnvironment {key text : String} :
      key ∈ [Key.searchLocations, Key.searchNames, Key.includedProfiles, Key.activeProfiles] → env.get? key = some text →
      MayExpand discovery resources env env text
  | ofLayer {plan : SearchPlan} {layer : Layer} {key text : String} :
      plan.formats = discovery.formats → plan.Gives resources layer → key ∈ [Key.activeProfiles, Key.includedProfiles] →
      layer.get? key = some text → MayExpand discovery resources env (env.addFirst layer) text

section Expansions

open Environment (Finished)

variable {discovery : Discovery} {resources : Resources} {env : Environment}

/-- Enough depth lets an expansion finish that is not endless. -/
theorem eventually_finished {scope : Environment} {text : String} (h : ¬scope.Endless text) :
    ∀ᶠ depth in Filter.atTop, Finished (scope.expandWithin text depth [] text.toList) := by
  obtain ⟨depth, hdepth⟩ := not_forall_not.mp h
  refine Filter.eventually_atTop.mpr ⟨depth, fun more hmore => ?_⟩
  rw [Environment.expandWithin_of_le hmore hdepth]
  exact hdepth

/-- Enough depth lets the expansions of the values of some keys finish if none of them is endless. -/
theorem eventually_finished_values {scope : Environment} {get? : String → Option String} {keys : List String}
    (h : ∀ key ∈ keys, ∀ text, get? key = some text → ¬scope.Endless text) :
    ∀ᶠ depth in Filter.atTop, ∀ key ∈ {key | key ∈ keys}, ∀ text, get? key = some text →
      Finished (scope.expandWithin text depth [] text.toList) := by
  rw [Filter.eventually_all_finite (List.finite_toSet keys)]
  intro key hkey
  cases hvalue : get? key with
  | none => exact Filter.Eventually.of_forall fun _ _ he => nomatch he
  | some text =>
    refine (eventually_finished (h key hkey text hvalue)).mono fun depth hdepth other he => ?_
    cases he
    exact hdepth

/-- If no list has an endless expansion, one depth is enough for all of them. A search may read layers under infinitely many names, but they
go by finitely many scopes. -/
theorem exists_depth (hformats : discovery.formats.Limited) (htexts : {text | resources.Holds text}.Finite)
    (h : ∀ scope text, MayExpand discovery resources env scope text → ¬scope.Endless text) :
    ∃ depth, ∀ scope text, MayExpand discovery resources env scope text →
      Finished (scope.expandWithin text depth [] text.toList) := by
  let plan : SearchPlan := { formats := discovery.formats, locations := [], names := [] }
  have henvironment := eventually_finished_values fun key hkey text hvalue => h env text (.ofEnvironment hkey hvalue)
  have hlayers : ∀ᶠ depth in Filter.atTop, ∀ scope ∈ plan.scopes resources env,
      ∀ key ∈ {key | key ∈ [Key.activeProfiles, Key.includedProfiles]}, ∀ text, (Layer.ofSource scope.1).get? key = some text →
        Finished ((scope.1.scope scope.2 env).expandWithin text depth [] text.toList) := by
    rw [Filter.eventually_all_finite (SearchPlan.finite_scopes hformats htexts)]
    rintro scope ⟨layer, hgives, rfl⟩
    refine eventually_finished_values fun key hkey text hvalue hendless => ?_
    refine h _ text (.ofLayer rfl hgives hkey hvalue) fun depth => ?_
    rw [Environment.expandWithin_congr Layer.sources_addFirst]
    exact hendless depth
  obtain ⟨depth, henvironment, hlayers⟩ := (henvironment.and hlayers).exists
  refine ⟨depth, ?_⟩
  rintro scope text (⟨hkey, hvalue⟩ | ⟨hplan, hgives, hkey, hvalue⟩)
  · exact henvironment _ hkey text hvalue
  · rw [Environment.expandWithin_congr Layer.sources_addFirst]
    exact hlayers _ ⟨_, hgives.of_formats hplan, rfl⟩ _ hkey text hvalue

/-- If one depth is enough for all lists, the limit on it never ends the search. -/
theorem avoids_of_depth (hsteady : env.Steady) (hformats : discovery.formats.Limited) {depth : Nat}
    (h : ∀ scope text, MayExpand discovery resources env scope text → Finished (scope.expandWithin text depth [] text.toList))
    (limit : Nat) :
    Avoids ConfigError.isTooDeep (discovery.within depth limit resources env).result := by
  have hlist : ∀ {scope : Environment} {text} (key), scope.Steady → MayExpand discovery resources env scope text →
      Finished (((scope.deepen depth).toward (.list key)).expand text) := by
    intro scope text key hscope hmay
    rw [Environment.toward_eq_self, Environment.expand_deepen_eq]
    exact avoids_map_iff.mpr (h scope text hmay)
  cases hplan : discovery.plan (env.deepen depth) with
  | error fault =>
    have havoids := @plan_avoids discovery (env.deepen depth) ConfigFault.isTooDeep fun key hkey text hvalue =>
      hlist key hsteady (.ofEnvironment (List.mem_append_left [Key.includedProfiles, Key.activeProfiles] hkey) hvalue)
    rw [within_of_plan_error hplan]
    exact avoids_error_iff.mpr (havoids fault hplan)
  | ok plan =>
    cases hstart : Progress.start (env.deepen depth) with
    | error fault =>
      have havoids := @Progress.start_avoids (env.deepen depth) ConfigFault.isTooDeep (fun _ => rfl) fun key hkey text hvalue =>
        hlist key hsteady (.ofEnvironment (List.mem_append_right [Key.searchLocations, Key.searchNames] hkey) hvalue)
      rw [within_of_start_error hplan hstart]
      exact avoids_error_iff.mpr (havoids fault hstart)
    | ok start =>
      rw [within_of_start hplan hstart, avoids_conclude_iff]
      intro error herror
      obtain ⟨rest, hrest, horderly⟩ := orderly_start hstart
      cases hrun : (passes plan resources limit limit).run.run start with
      | mk result q =>
        rw [hrun] at herror
        cases herror
        rcases (orderly_kept (env.deepen depth) plan resources).start_error hrest horderly hrun with
          ⟨rfl, -⟩ | ⟨current, hq, hfails⟩
        · rfl
        cases hfails with
        | loading => rfl
        | reading => rfl
        | @accepting layer fault hgives haccept =>
          have hlayer := SearchPlan.steady_of_gives (formats_of_plan hplan ▸ hformats) hgives
          refine Progress.accept_avoids (fun _ => rfl) (fun key hkey text hvalue => ?_) fault haccept
          have hscope : ((Progress.scopeOf q.environment layer q.loaded.length).toward (.list key)).expand text =
              (((env.addFirst layer).deepen depth).toward (.list key)).expand text := by
            rw [scopeOf_of_steady (hq.environment ▸ ⟨hsteady.layer_steady⟩) hlayer, hq.environment]
            exact Environment.expand_congr rfl rfl
          rw [hscope]
          exact hlist key (hsteady.addFirst hlayer) (.ofLayer (formats_of_plan hplan) hgives hkey hvalue)

end Expansions

/-! ## What keeps a search from ending -/

/-- In files held in memory and read in the standard formats, the passes of a search in a steady environment, and so in one without random
values, come to an end, whatever limit there is on expansions. A search without limits ends exactly if some limit on expansions never ends
it, however many passes there may be; and it ends unless a list that it may expand has an endless expansion. -/
theorem ends_or_endless (texts : List (String × String)) (locations names : List String) (env : Environment) (hsteady : env.Steady) :
    let search : Discovery := { locations, names }
    let files := Resources.ofList texts
    (∀ depth, ∃ limit, ∀ more, limit ≤ more →
        Avoids ConfigError.isTooManyPasses (search.within depth more files env).result) ∧
      (search.Ends files env ↔
        ∃ depth, ∀ limit, Avoids ConfigError.isTooDeep (search.within depth limit files env).result) ∧
      (search.Ends files env ∨ ∃ scope text, search.MayExpand files env scope text ∧ scope.Endless text) := by
  intro search files
  have hformats : search.formats.Limited := Formats.standard_limited
  have htexts : {text | files.Holds text}.Finite := Resources.finite_holds texts
  have hends := @ends_iff_avoids search files env hsteady hformats htexts
  refine ⟨exists_limit hsteady hformats htexts, hends, ?_⟩
  by_cases hendless : ∃ scope text, search.MayExpand files env scope text ∧ scope.Endless text
  · exact Or.inr hendless
  · have hnone : ∀ scope text, search.MayExpand files env scope text → ¬scope.Endless text :=
      fun scope text hmay h => hendless ⟨scope, text, hmay, h⟩
    obtain ⟨depth, hdepth⟩ := exists_depth hformats htexts hnone
    exact Or.inl (hends.mpr ⟨depth, avoids_of_depth hsteady hformats hdepth⟩)

/-- A list whose only placeholder comes to hold itself. -/
def selfRestoringList : String := "$\x7bx:$\x7bk\x7d\x7d"

/-- A file with the list: its key expands to the list behind the missing key, which the list then has for its fallback. -/
def selfRestoringFile : Resource where
  location := "classpath:/application.properties"
  description := "classpath:/application.properties"
  contents := "d=$\nk=$\x7bd\x7d\x7bx:$\x7bd\x7d\x7bk\x7d\x7d\nliftoff.profiles.include=" ++ selfRestoringList

/-- The file by itself. -/
def selfRestoring : Resources :=
  Resources.ofList [(selfRestoringFile.location, selfRestoringFile.contents)]

/-- What the file holds. -/
def selfRestoringLayer : Layer where
  name := "applicationConfig: [classpath:/application.properties]"
  origin := some "classpath:/application.properties"
  source := .entries [("d", "$"), ("k", "$\x7bd\x7d\x7bx:$\x7bd\x7d\x7bk\x7d\x7d"), (Key.includedProfiles, selfRestoringList)]

/-- An environment that includes a profile. -/
def including : Environment where
  layers := [Layer.ofEntries "values" [(Key.includedProfiles, "svc")]]

/-- Also where a list has no end to its expansion, the passes come to an end. -/
theorem ends_or_endless_selfRestoring : including.Steady ∧
    (∀ depth, ∃ limit, ∀ more, limit ≤ more →
      Avoids ConfigError.isTooManyPasses (searchOfRoot.within depth more selfRestoring including).result) ∧
    (searchOfRoot.Ends selfRestoring including ∨
      ∃ scope text, searchOfRoot.MayExpand selfRestoring including scope text ∧ scope.Endless text) := by
  have hsteady : including.Steady := Environment.steady_of_isRandom (by decide)
  obtain ⟨hpasses, -, hends⟩ :=
    ends_or_endless [(selfRestoringFile.location, selfRestoringFile.contents)] ["classpath:/"] ["application"] including hsteady
  exact ⟨hsteady, hpasses, hends⟩

instance : (({} : Environment).addFirst selfRestoringLayer).Steady :=
  Environment.steady_of_isRandom (by decide)

/-- With what the file holds, the list has no end to its expansion. -/
theorem endless_selfRestoringLayer : (({} : Environment).addFirst selfRestoringLayer).Endless selfRestoringList := by
  have hbody : (({} : Environment).addFirst selfRestoringLayer).expandWithin selfRestoringList 3 [] "x:$\x7bk\x7d".toList =
      .ok "x:$\x7bx:$\x7bk\x7d\x7d".toList := by decide +kernel
  exact Environment.endless_of_restored (by decide +kernel) hbody (by decide +kernel : _ = ("x", some _)) (by decide +kernel)

/-- The plan of the search does not depend on any limit. -/
theorem plan_searchOfRoot (depth : Nat) : searchOfRoot.plan (({} : Environment).deepen depth) =
    .ok { formats := Formats.standard, locations := ["classpath:/"], names := ["application"] } := rfl

/-- Nor does its beginning. -/
theorem start_empty (depth : Nat) : Progress.start (({} : Environment).deepen depth) =
    .ok { environment := ({} : Environment).deepen depth, waiting := [none, some { name := Default.profile, standsIn := true }] } := by
  rfl

/-- Whoever accepts the layer is ended by the limit on expansions. -/
theorem accept_selfRestoringLayer {p : Progress} {depth : Nat} (h : p.environment = ({} : Environment).deepen depth) :
    ∃ fault, fault.isTooDeep = true ∧ p.accept selfRestoringLayer = .error fault := by
  have hnot : ¬Avoids ConfigFault.isTooDeep (p.accept selfRestoringLayer) := by
    intro havoids
    have hactive : selfRestoringLayer.get? Key.activeProfiles = none := by decide +kernel
    have hincluded : selfRestoringLayer.get? Key.includedProfiles = some selfRestoringList := by decide +kernel
    rw [Progress.accept_eq, avoids_map_iff, h, Progress.boundLists, hactive, hincluded] at havoids
    have hlist : Avoids ConfigFault.isTooDeep (Progress.boundProfiles
      ((({} : Environment).addFirst selfRestoringLayer).deepen depth) Key.includedProfiles (some selfRestoringList)) :=
      Avoids.of_bind havoids
    have hfinished := Progress.finished_of_boundProfiles hlist
    rw [Environment.toward_eq_self, Environment.expand_deepen_eq] at hfinished
    exact endless_selfRestoringLayer depth (avoids_map_iff.mp hfinished)
  simp only [Avoids, not_forall] at hnot
  obtain ⟨fault, haccept, hfault⟩ := hnot
  exact ⟨fault, Bool.eq_true_of_not_eq_false hfault, haccept⟩

/-- Reading the file is ended by the limit on expansions. -/
theorem readLayer_selfRestoring {plan : SearchPlan} {p : Progress} {depth : Nat} (hformats : plan.formats = Formats.standard)
    (h : p.environment = ({} : Environment).deepen depth) : ∃ error q, error.isTooDeep = true ∧
      (readLayer plan selfRestoringFile selfRestoringFile.location "properties" none).run.run p = (.error error, q) := by
  have hformat : plan.formats.format? "properties" = some Format.properties := by
    rw [hformats]
    exact List.find?_cons_of_pos (by decide +kernel)
  have hread : Format.properties.read (layerName selfRestoringFile.location none) selfRestoringFile none =
      .ok (some selfRestoringLayer) := rfl
  let noted := p.note .debug "loaded configuration file"
    [("location", .text selfRestoringFile.location), ("resource", .text selfRestoringFile.description),
      ("profile", .text (Text.quotedOption none))]
  obtain ⟨fault, hfault, haccept⟩ := @accept_selfRestoringLayer noted depth h
  refine ⟨{ fault }, noted, hfault, ?_⟩
  have haccept' : noted.accept
      { name := selfRestoringLayer.name, origin := selfRestoringLayer.origin, source := selfRestoringLayer.source } = .error fault :=
    haccept
  simp only [readLayer, hformat, hread, run_bind, run_note, run_get]
  rw [haccept']
  rfl

/-- The first pass is ended by the limit on expansions: the first file that it looks up is the one with the list. -/
theorem visits_selfRestoring {p : Progress} {depth : Nat} (h : p.environment = ({} : Environment).deepen depth) :
    let plan : SearchPlan := { formats := Formats.standard, locations := ["classpath:/"], names := ["application"] }
    ∃ error q, error.isTooDeep = true ∧
      ((plan.visits [] none).forM (visit plan selfRestoring none)).run.run p = (.error error, q) := by
  intro plan
  have hvisits : plan.visits [] none = .file selfRestoringFile.location "properties" none ::
      [.file "classpath:/application.yml" "yml" none, .file "classpath:/application.yaml" "yaml" none,
        .file "classpath:/application.toml" "toml" none] := by decide +kernel
  have hfound : selfRestoring selfRestoringFile.location = .ok (some selfRestoringFile) := by decide +kernel
  let lookedUp := { p with probed := p.probed ++ [selfRestoringFile.location] }
  obtain ⟨error, q, herror, hread⟩ := @readLayer_selfRestoring plan lookedUp depth rfl h
  have hlook : (lookUp selfRestoring none selfRestoringFile.location).run.run p = (.ok (some selfRestoringFile), lookedUp) := by
    simp only [lookUp, run_bind, run_modify, hfound]
    rfl
  refine ⟨error, q, herror, ?_⟩
  rw [hvisits]
  refine (run_bind (visit plan selfRestoring none _) (fun _ => List.forM _ _) p).trans ?_
  rw [visit, run_bind, hlook]
  simp only [hread]

/-- So the search over the file by itself goes on for ever, under no limit. -/
theorem not_ends_selfRestoring : ¬searchOfRoot.Ends selfRestoring {} := by
  rw [ends_iff_exists]
  rintro ⟨depth, limit, h⟩
  rw [within_of_start (plan_searchOfRoot depth) (start_empty depth), avoids_conclude_iff] at h
  obtain ⟨hdeep, hpasses⟩ := avoids_isLimit_iff.mp h
  cases limit with
  | zero => exact Bool.noConfusion (hpasses _ rfl)
  | succ limit =>
    rw [run_passes_succ, if_neg (List.cons_ne_nil _ _), run_bind] at hdeep
    obtain ⟨error, q, herror, hvisits⟩ := @visits_selfRestoring
      (({ environment := ({} : Environment).deepen depth, waiting := [some { name := Default.profile, standsIn := true }] } :
        Progress).reach (.pass none)) depth rfl
    have hturn : (turn { formats := Formats.standard, locations := ["classpath:/"], names := ["application"] } selfRestoring
        {} [none, some { name := Default.profile, standsIn := true }]).run.run
          { environment := ({} : Environment).deepen depth, waiting := [none, some { name := Default.profile, standsIn := true }] } =
        (.error error, q) := hvisits
    rw [hturn] at hdeep
    rw [hdeep error rfl] at herror
    cases herror

end Discovery

end Ignition
