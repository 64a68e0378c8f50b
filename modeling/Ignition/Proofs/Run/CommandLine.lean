import Ignition.Container.Memory
import Ignition.Proofs.Config.Options
import Ignition.Proofs.Discovery.Loaded
import Ignition.Proofs.Run.Failing

/-!
# The precedence of the command line

The layer of arguments goes ahead of all others, and nothing that a run does to an environment afterwards puts a layer ahead of it: a
search adds layers right ahead of the layer of last resort or at the end, and moves the layer of last resort to the end. So in the
environment that a container is made for, the command line has its say before anything else (`commandLine_first_of_run`), unless
observers change the environment.
-/

namespace Ignition

/-! ## The first layer -/

namespace Environment

/-- A layer is the first one of an environment. -/
def LedBy (env : Environment) (layer : Layer) : Prop :=
  ∃ rest, env.layers = layer :: rest

variable {env env' : Environment} {layer other : Layer} {name key value : String}

/-- What the first layer answers counts. -/
theorem LedBy.get? (h : env.LedBy layer) (hvalue : layer.get? key = some value) : env.get? key = some value := by
  obtain ⟨rest, hrest⟩ := h
  rw [Environment.get?, hrest, List.findSome?_cons, hvalue]

/-- A layer that is put first leads. -/
theorem ledBy_addFirst : (env.addFirst layer).LedBy layer :=
  ⟨(env.remove layer.name).layers, rfl⟩

/-- A layer leads on when another one is removed. -/
theorem LedBy.remove (h : env.LedBy layer) (hne : layer.name ≠ name) : (env.remove name).LedBy layer := by
  obtain ⟨rest, hrest⟩ := h
  refine ⟨rest.eraseP (·.name = name), ?_⟩
  rw [Environment.remove, hrest, List.eraseP_cons_of_neg (by simpa using hne)]

/-- It leads on when another one is put last. -/
theorem LedBy.addLast (h : env.LedBy layer) (hne : layer.name ≠ other.name) : (env.addLast other).LedBy layer := by
  obtain ⟨rest, hrest⟩ := h.remove hne
  exact ⟨rest ++ [other], by rw [Environment.addLast, hrest, List.cons_append]⟩

/-- It leads on when another one is put ahead of one behind it. -/
theorem LedBy.addBefore? (h : env.LedBy layer) (hne : layer.name ≠ other.name) (hname : layer.name ≠ name)
    (hadd : env.addBefore? name other = some env') : env'.LedBy layer := by
  obtain ⟨rest, hrest⟩ := h.remove hne
  rw [Environment.addBefore?] at hadd
  split at hadd
  · cases hadd
  · obtain rfl := Option.some.inj hadd
    exact ⟨spliceAt name (fun old => [other, old]) rest, by simp only [hrest, spliceAt, if_neg hname]⟩

end Environment

/-! ## The layer of arguments in a search -/

namespace Discovery

variable {env : Environment} {layer read : Layer} {loaded : List Layer} {resources : Resources} {discovery : Discovery}
  {found : Discovered}

/-- The name for a location and a profile is not that of the layer of arguments. -/
theorem layerName_ne_commandLine (location : String) (profile : Option String) :
    layerName location profile ≠ LayerName.commandLine := by
  intro h
  have hhead := congrArg (fun name => name.toList.head?) h
  cases profile <;> simp [layerName, LayerName.fileLayer, LayerName.commandLine] at hhead

/-- It leads on when a layer that was read is put in its place. -/
theorem ledBy_place (hasDefaults : Bool) (h : env.LedBy layer) (hread : layer.name ≠ read.name)
    (hdefaults : layer.name ≠ LayerName.defaults) : (place hasDefaults env read).LedBy layer := by
  rw [place]
  split
  · rcases hadd : env.addBefore? LayerName.defaults read with _ | env'
    · exact h
    · exact h.addBefore? hread hdefaults hadd
  · exact h.addLast hread

/-- No layer that is read goes ahead of the first one. -/
theorem ledBy_withLoaded (h : env.LedBy layer) (hloaded : ∀ read ∈ loaded, layer.name ≠ read.name)
    (hdefaults : layer.name ≠ LayerName.defaults) : (withLoaded env loaded).LedBy layer := by
  rw [withLoaded]
  generalize env.hasLayer LayerName.defaults = hasDefaults
  have hreversed : ∀ read ∈ loaded.reverse, layer.name ≠ read.name := fun read hmem => hloaded read (List.mem_reverse.mp hmem)
  generalize loaded.reverse = reversed at hreversed
  induction reversed generalizing env with
  | nil => exact h
  | cons read rest ih =>
    obtain ⟨hread, hrest⟩ := List.forall_mem_cons.mp hreversed
    exact ih (ledBy_place hasDefaults h hread hdefaults) hrest

/-- It leads on when the layer of last resort is put last. -/
theorem ledBy_withDefaultsLast (h : env.LedBy layer) (hdefaults : layer.name ≠ LayerName.defaults) :
    (withDefaultsLast env).LedBy layer := by
  rw [withDefaultsLast]
  split
  · rename_i last hlast
    have hname : last.name = LayerName.defaults := by simpa using List.find?_some hlast
    exact h.addLast (hname ▸ hdefaults)
  · exact h

/-- A search that came to its end leaves a layer of arguments first. -/
theorem ledBy_run (hrun : (discovery.run resources env).result = .ok found) (hformats : discovery.formats.NamesAsAsked)
    (h : env.LedBy layer) (hname : layer.name = LayerName.commandLine) : (discovery.run resources env).environment.LedBy layer := by
  obtain ⟨plan, start, finish, hcompleted⟩ := run_eq_ok hrun
  have hdefaults : layer.name ≠ LayerName.defaults := by
    rw [hname]
    decide
  rw [hcompleted.outcome_eq]
  refine ledBy_withDefaultsLast (ledBy_withLoaded ?_ (fun read hread => ?_) hdefaults) hdefaults
  · rw [hcompleted.orderly.environment]
    exact h
  · rw [← formats_of_plan hcompleted.plan_eq] at hformats
    obtain ⟨location, hlocation⟩ := name_of_gives hformats (hcompleted.gives read hread)
    rw [hname, hlocation]
    exact (layerName_ne_commandLine location read.profile).symm

end Discovery

/-! ## The layer of arguments in a run -/

/-- Observers that leave the environment as it is leave it so together. -/
theorem Observer.adjust_eq_self {σ : Type} {observers : List (Observer σ)}
    (h : ∀ observer ∈ observers, ∀ env state, (observer.environmentPrepared env state).1.1 = env) (env : Environment) (state : σ) :
    (adjust observers env state).1 = env := by
  induction observers generalizing env state with
  | nil => rfl
  | cons observer rest ih =>
    obtain ⟨hobserver, hrest⟩ := List.forall_mem_cons.mp h
    rw [adjust, ih hrest, hobserver]

namespace Application

open Arguments (Gives givenValues givenPositional)

variable {σ : Type} {app : Application σ} {args : List String} {state : σ} {world : World σ} {steps : List Step}
  {arguments : Arguments} {env : Environment} {container : Container σ}

/-- The properties of last resort are a layer that is put last. -/
theorem withDefaults_eq (env : Environment) (properties : Entries) :
    ∃ last, last.name = LayerName.defaults ∧ withDefaults env properties = env.addLast last := by
  rw [withDefaults]
  split
  · rename_i layer hlayer
    exact ⟨_, by simpa [Layer.overlaidBy] using List.find?_some hlayer, rfl⟩
  · exact ⟨_, rfl, rfl⟩

/-- Activating profiles changes no layer. -/
theorem layers_activate (env : Environment) (profiles : List String) :
    (profiles.foldl Environment.activate env).layers = env.layers := by
  induction profiles generalizing env with
  | nil => rfl
  | cons profile rest ih => exact ih (env.activate profile)

/-- Default properties and additional profiles make no layer of arguments. -/
theorem layer?_ownEnvironment (hbase : app.environment.hasLayer LayerName.commandLine = false) :
    app.ownEnvironment.layer? LayerName.commandLine = none := by
  have hown : ∀ layer ∈ app.environment.layers, layer.name ≠ LayerName.commandLine := by
    simpa [Environment.hasLayer] using hbase
  rw [ownEnvironment, Environment.layer?, layers_activate, List.find?_eq_none]
  simp only [decide_eq_true_eq]
  split
  · rename_i properties _
    obtain ⟨last, hlast, hdefaults⟩ := withDefaults_eq app.environment properties
    rw [hdefaults, Environment.addLast]
    intro layer hmem
    rcases List.mem_append.mp hmem with hold | hnew
    · exact hown layer (List.mem_of_mem_eraseP hold)
    · rw [List.mem_singleton.mp hnew, hlast]
      decide
  · exact hown

/-- Where the arguments become a layer and there was none before, it is the first one of the environment that is searched. -/
theorem ledBy_searchEnvironment (hlayer : app.commandLineLayer = true)
    (hbase : app.environment.hasLayer LayerName.commandLine = false) (hsearch : app.searchEnvironment args = .ok (arguments, env)) :
    Arguments.parse args = .ok arguments ∧ (arguments.isEmpty = false → env.LedBy arguments.toLayer) := by
  simp only [searchEnvironment, hlayer, if_true] at hsearch
  split at hsearch
  · nomatch hsearch
  · rename_i parsed hparse
    obtain ⟨rfl, rfl⟩ := Prod.mk.inj (Except.ok.inj hsearch)
    refine ⟨hparse, fun hgiven => ?_⟩
    rw [Arguments.applyTo, hgiven, if_neg Bool.false_ne_true, layer?_ownEnvironment hbase]
    exact Environment.ledBy_addFirst

/-- The layer of arguments is the first one of the environment that a search leaves. -/
theorem ledBy_configuration (hlayer : app.commandLineLayer = true)
    (hbase : app.environment.hasLayer LayerName.commandLine = false) (hformats : app.discovery.formats.NamesAsAsked)
    (hconfiguration : app.configuration args state = .ok (arguments, env)) :
    Arguments.parse args = .ok arguments ∧ (arguments.isEmpty = false → env.LedBy arguments.toLayer) := by
  obtain ⟨searched, result, hsearch, hresult, rfl⟩ := configuration_eq_ok hconfiguration
  obtain ⟨hparse, hled⟩ := ledBy_searchEnvironment hlayer hbase hsearch
  exact ⟨hparse, fun hgiven => Discovery.ledBy_run hresult hformats (hled hgiven) rfl⟩

/-- A container of a run that succeeds is the one that was made. -/
theorem created_of_run (hrun : (app.run args world).1 = .ok container) :
    ∃ arguments env steps state, app.Reaches args world.state (.created arguments env container) steps state := by
  rcases app.breaksOff_or_succeeds args world.state with
    ⟨error, has, steps, state, hbreak⟩ | ⟨arguments, env, made, steps, state, hserved, hpromoted⟩
  · obtain ⟨failure, after, hfailed, -⟩ := hbreak.dealtWith
    rw [hfailed] at hrun
    nomatch hrun
  · obtain ⟨after, hserving, -⟩ := hserved.run hpromoted
    rw [hserving] at hrun
    obtain rfl := Except.ok.inj hrun
    exact hserved.created_of_container rfl

/-- The environment that a container is made for is what observers make of the one that a search leaves. -/
theorem Reaches.adjust_of_created {start : σ} (h : app.Reaches args start (.created arguments env container) steps state) :
    ∃ found before, app.configuration args before = .ok (arguments, found) ∧ (Observer.adjust app.inOrder found before).1 = env := by
  cases h with
  | created hconfigured _ =>
    cases hconfigured with
    | configured _ hconfiguration hadjust => exact ⟨_, _, hconfiguration, congrArg Prod.fst hadjust⟩
    | @next stage _ _ _ _ _ hnext _ => cases stage <;> nomatch hnext
  | @next stage _ _ _ _ _ hnext _ => cases stage <;> nomatch hnext

/-- What the layer of arguments answers counts where it is the first one; without arguments it answers nothing. -/
theorem get?_of_ledBy {key value : String} (hled : arguments.isEmpty = false → env.LedBy arguments.toLayer)
    (hvalue : arguments.toLayer.get? key = some value) : env.get? key = some value := by
  refine (hled (Bool.eq_false_iff.mpr fun hempty => ?_)).get? hvalue
  simp only [Arguments.isEmpty, Bool.and_eq_true, List.isEmpty_iff] at hempty
  simp [Arguments.toLayer, hempty, Layer.ofEntries, Layer.get?, Entries.collapse, Entries.get?] at hvalue

/-- In the environment that the container of a run that succeeds was made for, the command line has precedence: an option that is given
has its values joined with commas, in order, and the positional arguments are joined under the key of their own. This is so whatever the
files, the profiles and the default properties say, if the arguments become a layer, there was no layer of arguments before, observers
leave the environment as it is, and formats give each layer the name that they are asked to give it. -/
theorem commandLine_first_of_run (app : Application σ) (args : List String) (world : World σ) (container : Container σ)
    (hlayer : app.commandLineLayer = true) (hbase : app.environment.hasLayer LayerName.commandLine = false)
    (hobservers : ∀ observer ∈ app.observers, ∀ env state, (observer.environmentPrepared env state).1.1 = env)
    (hformats : app.discovery.formats.NamesAsAsked) (hrun : (app.run args world).1 = .ok container) :
    ∃ arguments env steps state, app.Reaches args world.state (.created arguments env container) steps state ∧
      (∀ name, '=' ∉ name.toList → Gives args name → (name ≠ Key.positionalArguments ∨ givenPositional args = []) →
        env.get? name = some (Text.commaJoin (givenValues args name))) ∧
      (givenPositional args ≠ [] → env.get? Key.positionalArguments = some (Text.commaJoin (givenPositional args))) := by
  obtain ⟨arguments, env, steps, state, hcreated⟩ := created_of_run hrun
  obtain ⟨found, before, hconfiguration, hadjust⟩ := hcreated.adjust_of_created
  have hsame : ∀ observer ∈ app.inOrder, ∀ env state, (observer.environmentPrepared env state).1.1 = env :=
    fun observer hmem => hobservers observer ((List.mergeSort_perm _ _).mem_iff.mp hmem)
  obtain rfl : found = env := by rw [← hadjust, Observer.adjust_eq_self hsame]
  obtain ⟨hparse, hled⟩ := ledBy_configuration hlayer hbase hformats hconfiguration
  obtain ⟨hpositional, hnodup, hoptions⟩ := Arguments.parse_eq_ok hparse
  refine ⟨arguments, found, steps, state, hcreated, fun name hname hgives hfree => ?_, fun hsome => ?_⟩
  · refine get?_of_ledBy hled ?_
    rw [Arguments.get?_toLayer hnodup, hpositional, if_neg (by tauto), hoptions name hname, if_pos hgives]
    rfl
  · refine get?_of_ledBy hled ?_
    rw [Arguments.get?_toLayer hnodup, hpositional, if_pos ⟨rfl, hsome⟩]

/-- An application for which a variable, two files and a default property all name it. -/
def applicationOfManyNames : Application (List ContainerState) where
  factory := MemoryContainer.factory ⟨id, fun states _ => states⟩ {}
  environment := Environment.standard [("NAME", "variable")] 0
  resources _ := Resources.ofList [("classpath:/application.properties", "name=file"),
    ("classpath:/application-a.properties", "name=profile")]
  discovery := Discovery.searchOfRoot
  defaultProperties := some [("name", "default")]
  additionalProfiles := ["a"]
  observers := [Observer.logging]

/-- The names on the command line count, and the argument between them is the only positional one. -/
theorem commandLine_first_of_run_applicationOfManyNames :
    let args := ["--name=x", "b", "--name=y"]
    ∃ container, (applicationOfManyNames.run args { state := [] }).1 = .ok container ∧
      ∃ arguments env steps state, applicationOfManyNames.Reaches args [] (.created arguments env container) steps state ∧
        env.get? "name" = some "x,y" ∧ env.get? Key.positionalArguments = some "b" := by
  intro args
  have hok : (applicationOfManyNames.run args { state := [] }).1.isOk = true := by decide +kernel
  rcases hrun : (applicationOfManyNames.run args { state := [] }).1 with failure | container
  · rw [hrun] at hok
    nomatch hok
  · have hobservers : ∀ observer ∈ applicationOfManyNames.observers, ∀ env state,
        (observer.environmentPrepared env state).1.1 = env := by
      intro observer hmem env state
      obtain rfl := List.mem_singleton.mp hmem
      rfl
    obtain ⟨arguments, env, steps, state, hcreated, hoptions, hpositional⟩ :=
      commandLine_first_of_run applicationOfManyNames args { state := [] } container rfl (by decide +kernel) hobservers
        Formats.standard_namesAsAsked hrun
    have hname := hoptions "name" (by decide) (.inr ⟨"x", List.mem_cons_self⟩) (.inl (by decide))
    have hplain := hpositional (by decide)
    exact ⟨container, rfl, arguments, env, steps, state, hcreated, hname, hplain⟩

end Application

end Ignition
