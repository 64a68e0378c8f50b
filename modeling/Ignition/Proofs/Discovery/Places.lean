import Ignition.Proofs.Config.Operations
import Ignition.Proofs.Discovery.Itinerary
import Ignition.Proofs.Discovery.Precedence

/-!
# Places that an environment names

Besides the places configured, a search goes to those that the environment names, in the order they are first named; they come behind all
places configured, and so what is found there outranks what is found at those (`explicit_places_of_run`).

A place that the environment names and that is configured too is not moved: it stays among the places configured, where it was, and any
place behind it outranks it. So the places are in the order that the environment asks for only where the places configured happen to end
with those that it names (`asNamed_iff`).
-/

namespace Ignition

namespace Discovery

/-- The places that a list of entries names. -/
def namedPlaces (entries : List String) : List String :=
  entries.map Location.normalize

/-- The places that a list of entries names and a search has not configured, in the order they are first named. -/
def newPlaces (discovery : Discovery) (entries : List String) : List String :=
  ((namedPlaces entries).filter (· ∉ discovery.locations)).eraseDups

/-- The places to search are those of the search and then the new ones that are configured. -/
theorem searchLocations_eq {discovery : Discovery} {env : Environment} {entries : List String}
    (h : configuredList env Key.searchLocations = .ok entries) :
    discovery.searchLocations env = .ok (discovery.locations ++ discovery.newPlaces entries) := by
  rw [searchLocations, h, newPlaces, namedPlaces, ← foldl_withName]
  rfl

/-- A place is new if it is named and is none of those of the search. -/
theorem mem_newPlaces {discovery : Discovery} {entries : List String} {place : String} :
    place ∈ discovery.newPlaces entries ↔ place ∈ namedPlaces entries ∧ place ∉ discovery.locations := by
  rw [newPlaces, List.mem_eraseDups, List.mem_filter, decide_eq_true_eq]

/-- The places searched are those configured and those named. -/
theorem mem_append_newPlaces {discovery : Discovery} {entries : List String} {place : String} :
    place ∈ discovery.locations ++ discovery.newPlaces entries ↔
      place ∈ discovery.locations ∨ place ∈ namedPlaces entries := by
  rw [List.mem_append, mem_newPlaces]
  by_cases hplace : place ∈ discovery.locations <;> simp [hplace]

/-- The places of a list are as an environment asks for that names some of them: those named are behind all that are only configured, and
they are in the order they are first named. -/
structure AsNamed (configured named places : List String) : Prop where
  /-- No place named is ahead of one that is only configured. -/
  behind : ∀ place ∈ named, ∀ other ∈ configured, other ∉ named → ¬[place, other].Sublist places
  /-- The places named are in the order they are first named. -/
  order : (places.filter (· ∈ named)).eraseDups = named.eraseDups

/-- No element with a property is ahead of one without it exactly if those without it are a front part. -/
theorem pairwise_imp_iff {α : Type} {p : α → Prop} [DecidablePred p] {l : List α} :
    l.Pairwise (fun a b => p a → p b) ↔ l = l.filter (¬p ·) ++ l.filter (p ·) := by
  constructor
  · intro h
    induction h with
    | nil => rfl
    | @cons a l hfirst _ ih =>
      by_cases ha : p a
      · have hall : ∀ b ∈ l, p b := fun b hb => hfirst b hb ha
        rw [List.filter_cons_of_neg (by simpa using ha), List.filter_cons_of_pos (by simpa using ha),
          List.filter_eq_nil_iff.mpr (by simpa using hall), List.filter_eq_self.mpr (by simpa using hall), List.nil_append]
      · rw [List.filter_cons_of_pos (by simpa using ha), List.filter_cons_of_neg (by simpa using ha), List.cons_append, ← ih]
  · intro h
    have hfront : ∀ a ∈ l.filter (¬p ·), ¬p a := fun a ha => by simpa using (List.mem_filter.mp ha).2
    have hback : ∀ b ∈ l.filter (p ·), p b := fun b hb => by simpa using (List.mem_filter.mp hb).2
    rw [h, List.pairwise_append]
    exact ⟨List.pairwise_of_forall_mem_list fun a ha _ _ hp => absurd hp (hfront a ha),
      List.pairwise_of_forall_mem_list fun _ _ b hb _ => hback b hb, fun a ha _ _ hp => absurd hp (hfront a ha)⟩

section AsNamed

variable {configured named more : List String}

/-- Where all places behind those configured are named, no place named is ahead of one that is only configured exactly if those configured
end with the ones that are named. -/
theorem behind_iff (hmore : ∀ place ∈ more, place ∈ named) :
    (∀ place ∈ named, ∀ other ∈ configured, other ∉ named → ¬[place, other].Sublist (configured ++ more)) ↔
      configured = configured.filter (· ∉ named) ++ configured.filter (· ∈ named) := by
  rw [← pairwise_imp_iff]
  constructor
  · intro h
    rw [List.pairwise_iff_forall_sublist]
    intro place other hsub hplace
    by_contra hnot
    have hother : other ∈ configured := hsub.subset (by simp)
    exact h place hplace other hother hnot (hsub.trans (List.sublist_append_left _ _))
  · intro h place hplace other _ hnot hsub
    have hall : (configured ++ more).Pairwise fun a b => a ∈ named → b ∈ named := by
      rw [List.pairwise_append]
      exact ⟨h, List.pairwise_of_forall_mem_list fun _ _ b hb _ => hmore b hb, fun _ _ b hb _ => hmore b hb⟩
    exact hnot (List.pairwise_iff_forall_sublist.mp hall hsub hplace)

/-- Places that are named and new come, once each, behind the ones configured that are named. -/
theorem eraseDups_filter_append (hmore : ∀ place ∈ more, place ∈ named) (hapart : ∀ place ∈ more, place ∉ configured)
    (hnodup : more.Nodup) :
    ((configured ++ more).filter (· ∈ named)).eraseDups = (configured.filter (· ∈ named)).eraseDups ++ more := by
  have hkept : more.filter (· ∈ named) = more := List.filter_eq_self.mpr fun place hplace => decide_eq_true (hmore place hplace)
  have hnew : more.removeAll (configured.filter (· ∈ named)) = more :=
    List.filter_eq_self.mpr fun place hplace => by simp [hapart place hplace]
  rw [List.filter_append, hkept, List.eraseDups_append, hnew, eraseDups_of_nodup hnodup]

end AsNamed

/-- When the places searched are as the environment asks for: those configured that it names are the last of these, and it names them first,
in this order. -/
theorem asNamed_iff {discovery : Discovery} {entries : List String} :
    AsNamed discovery.locations (namedPlaces entries) (discovery.locations ++ discovery.newPlaces entries) ↔
      discovery.locations =
          discovery.locations.filter (· ∉ namedPlaces entries) ++ discovery.locations.filter (· ∈ namedPlaces entries) ∧
        (namedPlaces entries).eraseDups =
          (discovery.locations.filter (· ∈ namedPlaces entries)).eraseDups ++ discovery.newPlaces entries := by
  have hmore : ∀ place ∈ discovery.newPlaces entries, place ∈ namedPlaces entries := fun place hplace => (mem_newPlaces.mp hplace).1
  have hapart : ∀ place ∈ discovery.newPlaces entries, place ∉ discovery.locations := fun place hplace => (mem_newPlaces.mp hplace).2
  rw [← behind_iff hmore, ← eraseDups_filter_append hmore hapart (nodup_eraseDups _)]
  exact ⟨fun h => ⟨h.behind, h.order.symm⟩, fun h => ⟨h.1, h.2.symm⟩⟩

/-- If none of the places named is configured, the places searched are as the environment asks for. -/
theorem asNamed_of_apart {discovery : Discovery} {entries : List String}
    (h : ∀ place ∈ namedPlaces entries, place ∉ discovery.locations) :
    AsNamed discovery.locations (namedPlaces entries) (discovery.locations ++ discovery.newPlaces entries) := by
  have hconfigured : ∀ place ∈ discovery.locations, place ∉ namedPlaces entries := fun place hplace hnamed => h place hnamed hplace
  have hnone : discovery.locations.filter (· ∈ namedPlaces entries) = [] := by simpa using hconfigured
  have hall : discovery.locations.filter (· ∉ namedPlaces entries) = discovery.locations := by simpa using hconfigured
  have hnew : discovery.newPlaces entries = (namedPlaces entries).eraseDups := by
    rw [newPlaces, List.filter_eq_self.mpr fun place hplace => decide_eq_true (h place hplace)]
  rw [asNamed_iff, hnone, hall, hnew, List.append_nil]
  exact ⟨rfl, rfl⟩

end Discovery

namespace SearchPlan

variable {plan : SearchPlan}

/-- The readings of the pass for no profile at some places. -/
def readingsAt (plan : SearchPlan) (places : List String) : List Reading :=
  readings { plan with locations := places } [] none

/-- The readings at some places and at others behind them. -/
theorem readingsAt_append (places more : List String) :
    plan.readingsAt (places ++ more) = plan.readingsAt places ++ plan.readingsAt more :=
  List.flatMap_append

/-- These readings are for no profile. -/
theorem wanted_of_mem_readingsAt {places : List String} {reading : Reading} (h : reading ∈ plan.readingsAt places) :
    reading.wanted = none :=
  (wanted_of_mem_readings h).elim id id

/-- The names of the layers that the pass for no profile reads at some places. -/
def namesAt (plan : SearchPlan) (resources : Resources) (places : List String) : List String :=
  ((plan.readingsAt places).filterMap (·.layer? plan.formats resources)).map (·.name)

/-- The layers found at some places and at others behind them. -/
theorem namesAt_append {resources : Resources} (places more : List String) :
    plan.namesAt resources (places ++ more) = plan.namesAt resources places ++ plan.namesAt resources more := by
  simp only [namesAt, readingsAt_append, List.filterMap_append, List.map_append]

/-- A layer is found at some places if a reading there gives one of this name. -/
theorem mem_namesAt {resources : Resources} {places : List String} {name : String} (hformats : plan.formats.NamesAsAsked) :
    name ∈ plan.namesAt resources places ↔
      ∃ reading ∈ plan.readingsAt places, (reading.layer? plan.formats resources).isSome = true ∧ reading.layerName = name := by
  simp only [namesAt, Discovery.names_filterMap_layer? hformats, List.mem_map, List.mem_filter, and_assoc]

end SearchPlan

namespace Reading

/-- A reading for no profile is known by the name of its layer. -/
theorem eq_of_layerName {reading source : Reading} (hwanted : reading.wanted = none) (h : source.layerName = reading.layerName) :
    source.location = reading.location ∧ source.wanted = reading.wanted := by
  rw [layerName_eq, layerName_eq, hwanted, Discovery.layerName_none_eq_iff] at h
  rw [hwanted]
  exact h

/-- In an environment, the layer of the file that one reading is for outranks the one that another reading is for: it was read from that
file, it is ahead of the other one, and of the keys that no third layer has it decides those that it has. -/
def Outranks (formats : Formats) (resources : Resources) (env : Environment) (reading other : Reading) : Prop :=
  env.Ahead reading.layerName other.layerName ∧
    ∃ layer, env.layer? reading.layerName = some layer ∧
      (∃ source : Reading, source.location = reading.location ∧ source.wanted = reading.wanted ∧
        source.layer? formats resources = some layer) ∧
      ∀ key value, layer.get? key = some value →
        (∀ rest ∈ env.layers, rest.name ≠ reading.layerName → rest.name ≠ other.layerName → rest.get? key = none) →
        env.get? key = some value

end Reading

namespace Discovery

/-- What stands in the front of a list stands ahead of what does not. -/
theorem idxOf_lt_idxOf_append {α : Type} [DecidableEq α] {a b : α} {front back : List α} (hb : b ∈ front) (ha : a ∉ front) :
    (front ++ back).idxOf b < (front ++ back).idxOf a := by
  rw [List.idxOf_append_of_mem hb, List.idxOf_append_of_notMem ha]
  exact Nat.lt_add_right _ (List.idxOf_lt_length_of_mem hb)

/-! ## The stack behind a search -/

section Names

variable {env : Environment} {layer : Layer}

/-- A layer that is put in its place has a name of its own. -/
theorem nodup_place {hasDefaults : Bool} (h : env.layerNames.Nodup) : (place hasDefaults env layer).layerNames.Nodup := by
  cases hasDefaults with
  | true => exact (Environment.Operation.effect h (.addBefore LayerName.defaults layer)).nodup_layerNames h
  | false => exact (Environment.Operation.effect h (.addLast layer)).nodup_layerNames h

/-- With the layers that were loaded, no name is there twice. -/
theorem nodup_withLoaded {loaded : List Layer} (h : env.layerNames.Nodup) : (withLoaded env loaded).layerNames.Nodup :=
  List.foldlRecOn (motive := fun env : Environment => env.layerNames.Nodup) loaded.reverse _ h fun _ hplaced _ _ => nodup_place hplaced

/-- Nor with the layer of last resort at the end. -/
theorem nodup_withDefaultsLast (h : env.layerNames.Nodup) : (withDefaultsLast env).layerNames.Nodup := by
  unfold withDefaultsLast
  split
  · exact (Environment.Operation.effect h (.addLast _)).nodup_layerNames h
  · exact h

end Names

section Completed

variable {discovery : Discovery} {resources : Resources} {env : Environment} {plan : SearchPlan} {start finish : Progress}

/-- A search that came to its end leaves no layer name twice. -/
theorem Completed.nodup_layerNames (h : Completed discovery resources env plan start finish) (hnodup : env.layerNames.Nodup) :
    (discovery.run resources env).environment.layerNames.Nodup := by
  have hfinish : finish.environment.layerNames.Nodup := by
    rw [h.orderly.environment]
    exact hnodup
  rw [h.outcome_eq]
  exact nodup_withDefaultsLast (nodup_withLoaded hfinish)

/-- The name of a layer read is, in the end, that of a layer that was read. -/
theorem Completed.layer?_of_loaded (h : Completed discovery resources env plan start finish) (hnodup : env.layerNames.Nodup)
    (hformats : discovery.formats.NamesAsAsked) {name : String} (hname : name ∈ finish.loaded.map (·.name)) :
    ∃ layer ∈ finish.loaded, layer.name = name ∧ (discovery.run resources env).environment.layer? name = some layer := by
  obtain ⟨layer, hlayer, rfl⟩ := List.mem_map.mp (mem_names_settled.mpr hname)
  have hmem : layer ∈ (discovery.run resources env).environment.layers := by
    rw [h.layers hnodup hformats]
    exact List.mem_append_left _ (List.mem_append_left _ (List.mem_append_right _ hlayer))
  exact ⟨layer, mem_of_mem_settled hlayer, rfl, Environment.layer?_of_mem (h.nodup_layerNames hnodup) hmem⟩

/-- The layers that the pass for no profile reads are read first, those at each place behind those at the places before it. -/
theorem Completed.names_loaded (h : Completed discovery resources env plan start finish) {places more : List String}
    (hplaces : plan.locations = places ++ more) :
    ∃ later, finish.loaded.map (·.name) = plan.namesAt resources places ++ (plan.namesAt resources more ++ later) := by
  have hfirst : plan.readings [] none = plan.readingsAt (places ++ more) := by
    rw [SearchPlan.readingsAt, ← hplaces]
  refine ⟨((plan.readingsBehind [] finish.processed.names).filterMap (·.layer? plan.formats resources)).map (·.name), ?_⟩
  rw [h.followed.loaded, SearchPlan.itinerary, hfirst, List.filterMap_append, List.map_append, ← List.append_assoc,
    ← SearchPlan.namesAt_append]
  rfl

/-- What is left with the name of a layer read for no profile was read, for no profile, at the same location. -/
theorem Completed.source_of_loaded (h : Completed discovery resources env plan start finish) (hnodup : env.layerNames.Nodup)
    (hformats : discovery.formats.NamesAsAsked) {reading : Reading} (hwanted : reading.wanted = none)
    (hname : reading.layerName ∈ finish.loaded.map (·.name)) :
    ∃ layer, (discovery.run resources env).environment.layer? reading.layerName = some layer ∧
      ∃ source : Reading, source.location = reading.location ∧ source.wanted = reading.wanted ∧
        source.layer? plan.formats resources = some layer := by
  obtain ⟨layer, hmem, hlayer, hfound⟩ := h.layer?_of_loaded hnodup hformats hname
  rw [h.followed.loaded] at hmem
  obtain ⟨source, -, hsource⟩ := List.mem_filterMap.mp hmem
  have hsourceName := Reading.name_of_layer? (formats_of_plan h.plan_eq ▸ hformats) hsource
  obtain ⟨hlocation, hfor⟩ := Reading.eq_of_layerName hwanted (hsourceName.symm.trans hlayer)
  exact ⟨layer, hfound, source, hlocation, hfor, hsource⟩

/-- A file at a place that is searched behind others outranks a file at one of these, unless it is found at one of them too. -/
theorem Completed.outranks (h : Completed discovery resources env plan start finish) (hnodup : env.layerNames.Nodup)
    (hformats : discovery.formats.NamesAsAsked) {places more : List String} (hplaces : plan.locations = places ++ more)
    {reading other : Reading} (hreading : reading ∈ plan.readingsAt more) (hother : other ∈ plan.readingsAt places)
    (honly : ∀ file ∈ plan.readingsAt places, file.location ≠ reading.location)
    (hlayer : (reading.layer? plan.formats resources).isSome = true) (hlower : (other.layer? plan.formats resources).isSome = true) :
    reading.Outranks plan.formats resources (discovery.run resources env).environment other := by
  have hformats' : plan.formats.NamesAsAsked := formats_of_plan h.plan_eq ▸ hformats
  have hwanted : reading.wanted = none := SearchPlan.wanted_of_mem_readingsAt hreading
  have hfirst : other.layerName ∈ plan.namesAt resources places :=
    (SearchPlan.mem_namesAt hformats').mpr ⟨other, hother, hlower, rfl⟩
  have hlast : reading.layerName ∈ plan.namesAt resources more :=
    (SearchPlan.mem_namesAt hformats').mpr ⟨reading, hreading, hlayer, rfl⟩
  have hnot : reading.layerName ∉ plan.namesAt resources places := by
    intro hmem
    obtain ⟨file, hfile, -, heq⟩ := (SearchPlan.mem_namesAt hformats').mp hmem
    exact honly file hfile (Reading.eq_of_layerName hwanted heq).1
  obtain ⟨later, hnames⟩ := h.names_loaded hplaces
  have hname : reading.layerName ∈ finish.loaded.map (·.name) := by
    rw [hnames]
    exact List.mem_append_right _ (List.mem_append_left _ hlast)
  have hahead : (discovery.run resources env).environment.Ahead reading.layerName other.layerName := by
    rw [h.ahead_iff hnodup hformats hname (hnames ▸ List.mem_append_left _ hfirst) fun heq => hnot (heq ▸ hfirst), hnames]
    exact idxOf_lt_idxOf_append hfirst hnot
  obtain ⟨layer, hfound, hsource⟩ := h.source_of_loaded hnodup hformats hwanted hname
  exact ⟨hahead, layer, hfound, hsource, fun key value hvalue hrest =>
    Environment.get?_of_ahead (h.nodup_layerNames hnodup) hfound hahead hvalue hrest⟩

end Completed

/-- The places that an environment names are searched behind those configured, in the order they are first named, but for those that are
configured too, which stay where they are. So the places are as the environment asks for exactly if those configured end with the ones that
it names, and it names these first, in this order; in particular if it names none of them. In a search that came to its end, a file that is
found behind some of the places searched, and at none of these, outranks a file at one of these; so what is found at a place that is new
outranks what is found at those configured. -/
theorem explicit_places_of_run (discovery : Discovery) (resources : Resources) (env : Environment) (entries : List String)
    (hentries : configuredList env Key.searchLocations = .ok entries) :
    discovery.searchLocations env = .ok (discovery.locations ++ discovery.newPlaces entries) ∧
      (∀ place, place ∈ discovery.locations ++ discovery.newPlaces entries ↔
        place ∈ discovery.locations ∨ place ∈ namedPlaces entries) ∧
      (AsNamed discovery.locations (namedPlaces entries) (discovery.locations ++ discovery.newPlaces entries) ↔
        discovery.locations =
            discovery.locations.filter (· ∉ namedPlaces entries) ++ discovery.locations.filter (· ∈ namedPlaces entries) ∧
          (namedPlaces entries).eraseDups =
            (discovery.locations.filter (· ∈ namedPlaces entries)).eraseDups ++ discovery.newPlaces entries) ∧
      ((∀ place ∈ namedPlaces entries, place ∉ discovery.locations) →
        AsNamed discovery.locations (namedPlaces entries) (discovery.locations ++ discovery.newPlaces entries)) ∧
      ∀ found, env.layerNames.Nodup → discovery.formats.NamesAsAsked → (discovery.run resources env).result = .ok found →
        ∃ plan, discovery.plan env = .ok plan ∧
          ∀ places more, discovery.locations ++ discovery.newPlaces entries = places ++ more →
            ∀ explicit ∈ plan.readingsAt more, ∀ other ∈ plan.readingsAt places,
              (∀ file ∈ plan.readingsAt places, file.location ≠ explicit.location) →
              (explicit.layer? discovery.formats resources).isSome = true →
              (other.layer? discovery.formats resources).isSome = true →
              explicit.Outranks discovery.formats resources (discovery.run resources env).environment other := by
  refine ⟨searchLocations_eq hentries, fun place => mem_append_newPlaces, asNamed_iff, asNamed_of_apart, ?_⟩
  intro found hnodup hformats hfound
  obtain ⟨plan, start, finish, hrun⟩ := run_eq_ok hfound
  have hlocations : plan.locations = discovery.locations ++ discovery.newPlaces entries := by
    obtain ⟨locations, names, hlocations, -, rfl⟩ := plan_eq_ok hrun.plan_eq
    exact Except.ok.inj (hlocations.symm.trans (searchLocations_eq hentries))
  refine ⟨plan, hrun.plan_eq, fun places more hplaces explicit hexplicit other hother honly => ?_⟩
  rw [← formats_of_plan hrun.plan_eq]
  exact hrun.outranks hnodup hformats (hlocations.trans hplaces) hexplicit hother honly

/-- An environment that names two places, one of them as a path alone. -/
def environmentOfPlaces : Environment where
  layers := [Layer.ofEntries "base" [(Key.searchLocations, "./custom/, classpath:/extra/")]]

/-- A file at the first of these and one at the first place configured. -/
def filesAtPlaces : Resources :=
  Resources.ofList [("classpath:/application.properties", "x=configured\ny=1"), ("file:./custom/application.properties", "x=named")]

/-- A file in a place that is configured outranks the one in a default place. -/
theorem explicit_places_of_run_custom :
    let discovery : Discovery := {}
    let explicit : Reading := { location := "file:./custom/application.properties", extension := "properties", wanted := none }
    let other : Reading := { location := "classpath:/application.properties", extension := "properties", wanted := none }
    configuredList environmentOfPlaces Key.searchLocations = .ok ["./custom/", "classpath:/extra/"] ∧
      environmentOfPlaces.layerNames.Nodup ∧ discovery.formats.NamesAsAsked ∧
      (discovery.run filesAtPlaces environmentOfPlaces).result =
        .ok { loaded := [other.layerName, explicit.layerName], processed := ["default"] } ∧
      discovery.searchLocations environmentOfPlaces =
        .ok ["classpath:/", "classpath:/config/", "file:./", "file:./config/", "file:./custom/", "classpath:/extra/"] ∧
      AsNamed discovery.locations ["file:./custom/", "classpath:/extra/"]
        (discovery.locations ++ discovery.newPlaces ["./custom/", "classpath:/extra/"]) ∧
      explicit.Outranks discovery.formats filesAtPlaces (discovery.run filesAtPlaces environmentOfPlaces).environment other := by
  intro discovery explicit other
  have hentries : configuredList environmentOfPlaces Key.searchLocations = .ok ["./custom/", "classpath:/extra/"] := by decide +kernel
  have hnodup : environmentOfPlaces.layerNames.Nodup := by decide
  have hfound : (discovery.run filesAtPlaces environmentOfPlaces).result =
      .ok { loaded := [other.layerName, explicit.layerName], processed := ["default"] } := by decide +kernel
  have hnames : discovery.searchNames environmentOfPlaces = .ok ["application"] := by decide +kernel
  obtain ⟨hplaces, -, -, hasked, hrun⟩ := explicit_places_of_run discovery filesAtPlaces environmentOfPlaces _ hentries
  obtain ⟨plan, hplan, houtranks⟩ := hrun _ hnodup Formats.standard_namesAsAsked hfound
  obtain ⟨locations, names, hplaces', hnames', rfl⟩ := plan_eq_ok hplan
  cases hplaces.symm.trans hplaces'
  cases hnames.symm.trans hnames'
  refine ⟨hentries, hnodup, Formats.standard_namesAsAsked, hfound, ?_, ?_, ?_⟩
  · rw [hplaces]
    decide +kernel
  · exact hasked (by decide +kernel)
  · exact houtranks discovery.locations (discovery.newPlaces _) rfl explicit (by decide +kernel) other (by decide +kernel)
      (by decide +kernel) (by decide +kernel) (by decide +kernel)

/-- An environment that names the first of the places configured. -/
def environmentOfFirstPlace : Environment where
  layers := [Layer.ofEntries "base" [(Key.searchLocations, "classpath:/")]]

/-- A file at the first place configured and one at the third. -/
def filesAtFirstPlace : Resources :=
  Resources.ofList [("classpath:/application.properties", "x=explicit"), ("file:./application.properties", "x=other")]

/-- The place that is named stays ahead of those that are not, and so a file at one of these outranks the file there. -/
theorem named_behind_firstPlace :
    let discovery : Discovery := {}
    configuredList environmentOfFirstPlace Key.searchLocations = .ok ["classpath:/"] ∧
      discovery.searchLocations environmentOfFirstPlace =
        .ok ["classpath:/", "classpath:/config/", "file:./", "file:./config/"] ∧
      (discovery.run filesAtFirstPlace environmentOfFirstPlace).result =
        .ok { loaded := ["applicationConfig: [classpath:/application.properties]", "applicationConfig: [file:./application.properties]"]
              processed := ["default"] } ∧
      (discovery.run filesAtFirstPlace environmentOfFirstPlace).environment.get? "x" = some "other" := by
  decide +kernel

end Discovery

end Ignition
