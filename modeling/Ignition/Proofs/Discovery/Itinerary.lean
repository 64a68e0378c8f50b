import Ignition.Proofs.Config.Options
import Ignition.Proofs.Discovery.Loaded
import Mathlib.Data.List.DropRight

/-!
# The itinerary of a search

What a search reads can be written down beforehand as soon as it is known which profiles it processes, and in which order
(`SearchPlan.itinerary`): the readings for no profile, and then those for each profile, among them readings from the files of the
profiles before it. The search finds these profiles out while it reads; but a search that came to its end has made exactly the readings
of the itinerary for the profiles that it processed, in this order, and has looked up exactly the locations in it
(`loaded_eq_itinerary_of_run`). So which layers it reads depends on the environment only through the places to search, the base names and
the profiles processed. The itinerary is written in terms of its own, not in those of the visits that a search makes: what the extension
of a place is, which format has it, what a layer is called.
-/

namespace Ignition

/-- A text that holds a character is cut at its last occurrence: behind it stands what has no such character any more. -/
theorem Text.exists_cutLast_of_mem {c : Char} {text : List Char} (h : c ∈ text) :
    ∃ before, cutLast c text = some (before, text.rtakeWhile (· ≠ c)) := by
  obtain ⟨behind, before, hreverse, hbehind⟩ := List.eq_append_cons_of_mem (List.mem_reverse.mpr h)
  have htake : text.reverse.takeWhile (· ≠ c) = behind := by
    have hother : ∀ d ∈ behind, decide (d ≠ c) = true := fun d hd => decide_eq_true (ne_of_mem_of_not_mem hd hbehind)
    rw [hreverse, List.takeWhile_append_of_pos hother]
    simp
  refine ⟨before.reverse, ?_⟩
  rw [cutLast, hreverse, cut_append hbehind, List.rtakeWhile, htake]
  rfl

/-- A reading of a file, wherever one is found at the location. -/
structure Reading where
  /-- The location. -/
  location : String
  /-- The extension, which says what the format is. -/
  extension : String
  /-- The profile that the reading is for, if any. -/
  wanted : Option String
  /-- Whether the file was looked up before in the same pass, and is read again. -/
  again : Bool := false
deriving DecidableEq, Repr

namespace Formats

variable {formats : Formats}

/-- The first format with an extension, where the case of ASCII letters does not count. -/
def formatOf? (formats : Formats) (extension : String) : Option Format :=
  formats.formats.find? fun format => format.extensions.any fun known =>
    known.toList.map Char.toLower = extension.toList.map Char.toLower

/-- The extensions of all formats, each where it stands first. -/
def allExtensions (formats : Formats) : List String :=
  (formats.formats.flatMap (·.extensions)).eraseDups

/-- The format that a file belongs to is the first one with its extension. -/
theorem format?_eq_formatOf? (extension : String) : formats.format? extension = formats.formatOf? extension := by
  refine congrArg (formats.formats.find? ·) (funext fun format => ?_)
  refine congrArg (format.extensions.any ·) (funext fun known => ?_)
  exact Bool.beq_eq_decide_eq _ _

/-- The extensions that are tried are those of all formats. -/
theorem extensions_eq_allExtensions : formats.extensions = formats.allExtensions :=
  (eraseDups_eq_foldl _).symm

end Formats

namespace Reading

/-- The name of the layer that a reading gives. -/
def layerName (reading : Reading) : String :=
  match reading.wanted with
  | none => "applicationConfig: [" ++ reading.location ++ "]"
  | some profile => "applicationConfig: [" ++ reading.location ++ "] (profile=" ++ profile ++ ")"

/-- The layer that a reading gives, if a file is found and holds one. -/
def layer? (formats : Formats) (resources : Resources) (reading : Reading) : Option Layer :=
  match formats.formatOf? reading.extension, resources reading.location with
  | some format, .ok (some resource) =>
    match format.read reading.layerName resource reading.wanted with
    | .ok (some layer) => some { layer with profile := reading.wanted }
    | _ => none
  | _, _ => none

/-- The name is that of the layer from the location, perhaps for a profile. -/
theorem layerName_eq (reading : Reading) : reading.layerName = Discovery.layerName reading.location reading.wanted := by
  cases hwanted : reading.wanted with
  | none => simp only [layerName, hwanted]; rfl
  | some profile => simp only [layerName, hwanted]; rfl

/-- The format of a reading gives each layer the name that it is asked to give it. -/
def KeepsName (formats : Formats) (reading : Reading) : Prop :=
  ∀ format, formats.format? reading.extension = some format →
    ∀ (name : String) (resource : Resource) (profile : Option String) (layer : Layer),
      format.read name resource profile = .ok (some layer) → layer.name = name

/-- The name that a reading asks for is the name of the layer that it gives, if its format gives each layer the name asked for. -/
theorem name_of_keepsName {formats : Formats} {resources : Resources} {reading : Reading} {layer : Layer}
    (hkeeps : reading.KeepsName formats) (h : reading.layer? formats resources = some layer) :
    layer.name = reading.layerName := by
  unfold layer? at h
  split at h
  · rename_i format resource hformat hresource
    split at h
    · rename_i read hread
      cases h
      rw [← Formats.format?_eq_formatOf?] at hformat
      have hname : read.name = reading.layerName := hkeeps format hformat _ _ _ _ hread
      exact hname
    · cases h
  · cases h

/-- Formats that name layers as they are asked to do so for every reading. -/
theorem keepsName_of_namesAsAsked {formats : Formats} (hformats : formats.NamesAsAsked) (reading : Reading) :
    reading.KeepsName formats :=
  fun format hformat => hformats format (List.mem_of_find?_eq_some hformat)

/-- The name that a reading asks for is the name of the layer that it gives. -/
theorem name_of_layer? {formats : Formats} {resources : Resources} {reading : Reading} {layer : Layer}
    (hformats : formats.NamesAsAsked) (h : reading.layer? formats resources = some layer) :
    layer.name = reading.layerName :=
  name_of_keepsName (keepsName_of_namesAsAsked hformats reading) h

end Reading

namespace SearchPlan

/-- The readings for a base name with an extension in a directory: in the pass for no profile the file of that name; in the pass for a
profile this file, the file of the profile for what is in it for none, the files of the earlier profiles, and the file of the profile
again. -/
def nameReadings (earlier : List String) (profile : Option String) (directory name extension : String) : List Reading :=
  let file (name : String) := directory ++ name ++ "." ++ extension
  match profile with
  | none => [{ location := file name, extension, wanted := none }]
  | some this =>
    [{ location := file name, extension, wanted := some this },
      { location := file (name ++ "-" ++ this), extension, wanted := none }] ++
    (earlier.map fun other => { location := file (name ++ "-" ++ other), extension, wanted := some this }) ++
    [{ location := file (name ++ "-" ++ this), extension, wanted := some this, again := true }]

/-- The text behind the last dot of a place. -/
def behindLastDot (place : String) : List Char :=
  place.toList.rtakeWhile (· ≠ '.')

/-- The reading for a place that is a file. The text behind its last dot is its extension, if there is a dot and no slash behind it; and
there is a reading only if there is a format with this extension. -/
def fileReadings (plan : SearchPlan) (profile : Option String) (place : String) : List Reading :=
  if '.' ∈ place.toList ∧ '/' ∉ behindLastDot place ∧ (plan.formats.formatOf? (String.ofList (behindLastDot place))).isSome then
    [{ location := place, extension := String.ofList (behindLastDot place), wanted := profile }]
  else []

/-- The readings of the pass for a profile, or for none, behind the passes for some earlier profiles. -/
def readings (plan : SearchPlan) (earlier : List String) (profile : Option String) : List Reading :=
  plan.locations.flatMap fun place =>
    if place.toList.getLast? = some '/' then
      plan.names.flatMap fun name => plan.formats.allExtensions.flatMap fun extension =>
        nameReadings earlier profile place name extension
    else plan.fileReadings profile place

/-- The readings of the passes for some profiles, behind the passes for some earlier ones. -/
def readingsBehind (plan : SearchPlan) (earlier : List String) : List String → List Reading
  | [] => []
  | profile :: later => plan.readings earlier (some profile) ++ readingsBehind plan (earlier ++ [profile]) later

/-- All readings of a search that processes some profiles, in order. -/
def itinerary (plan : SearchPlan) (processed : List String) : List Reading :=
  plan.readings [] none ++ plan.readingsBehind [] processed

variable {plan : SearchPlan} {earlier processed : List String} {profile : String}

/-- The pass for one more profile adds its readings. -/
theorem readingsBehind_concat : plan.readingsBehind earlier (processed ++ [profile]) =
    plan.readingsBehind earlier processed ++ plan.readings (earlier ++ processed) (some profile) := by
  induction processed generalizing earlier with
  | nil => simp [readingsBehind]
  | cons first processed ih => rw [List.cons_append, readingsBehind, ih, readingsBehind]; simp

/-- One more profile adds the readings of its pass. -/
theorem itinerary_concat : plan.itinerary (processed ++ [profile]) =
    plan.itinerary processed ++ plan.readings processed (some profile) := by
  rw [itinerary, readingsBehind_concat, ← List.append_assoc, List.nil_append]
  rfl

/-- The reading for a place that is a file looks it up, for the profile of its pass. -/
theorem eq_of_mem_fileReadings {profile : Option String} {place : String} {reading : Reading}
    (h : reading ∈ plan.fileReadings profile place) : reading.again = false ∧ reading.wanted = profile := by
  unfold fileReadings at h
  split at h
  · rw [List.mem_singleton.mp h]
    exact ⟨rfl, rfl⟩
  · nomatch h

/-- A reading is for no profile, or for that of its pass. -/
theorem wanted_of_mem_readings {profile : Option String} {reading : Reading} (h : reading ∈ plan.readings earlier profile) :
    reading.wanted = none ∨ reading.wanted = profile := by
  obtain ⟨place, -, h⟩ := List.mem_flatMap.mp h
  split at h
  · obtain ⟨base, -, h⟩ := List.mem_flatMap.mp h
    obtain ⟨extension, -, h⟩ := List.mem_flatMap.mp h
    cases profile with
    | none =>
      rw [List.mem_singleton.mp h]
      exact .inl rfl
    | some this =>
      simp only [nameReadings, List.mem_append, List.mem_cons, List.not_mem_nil, or_false, List.mem_map] at h
      rcases h with ((rfl | rfl) | ⟨other, -, rfl⟩) | rfl
      · exact .inr rfl
      · exact .inl rfl
      · exact .inr rfl
      · exact .inr rfl
  · exact .inr (eq_of_mem_fileReadings h).2

/-- The readings of an itinerary are for no profile or for one that is processed. -/
theorem mem_processed_of_mem_itinerary {reading : Reading} {name : String} (h : reading ∈ plan.itinerary processed)
    (hname : name ∈ reading.wanted) : name ∈ processed := by
  induction processed using List.reverseRecOn with
  | nil =>
    rw [itinerary, readingsBehind, List.append_nil] at h
    have hnone : reading.wanted = none := (wanted_of_mem_readings h).elim id id
    rw [hnone] at hname
    nomatch hname
  | append_singleton processed last ih =>
    rw [itinerary_concat, List.mem_append] at h
    rw [List.mem_append, List.mem_singleton]
    rcases h with h | h
    · exact .inl (ih h)
    · rcases wanted_of_mem_readings h with hwanted | hwanted
      · rw [hwanted] at hname
        nomatch hname
      · rw [hwanted] at hname
        exact .inr (Option.some.inj hname).symm

/-- Readings each of whose locations is looked up for one of them. -/
def LooksUpAll (readings : List Reading) : Prop :=
  ∀ reading ∈ readings, ∃ other ∈ readings, other.location = reading.location ∧ other.again = false

/-- Readings in which each file that is read again was looked up for a reading before. -/
def LooksUpFirst (readings : List Reading) : Prop :=
  ∀ before reading behind, readings = before ++ reading :: behind → reading.again = true →
    ∃ other ∈ before, other.location = reading.location ∧ other.again = false

theorem LooksUpFirst.looksUpAll {readings : List Reading} (h : LooksUpFirst readings) : LooksUpAll readings := by
  intro reading hr
  cases hagain : reading.again with
  | false => exact ⟨reading, hr, rfl, hagain⟩
  | true =>
    obtain ⟨before, behind, heq⟩ := List.append_of_mem hr
    obtain ⟨other, ho, hother⟩ := h before reading behind heq hagain
    exact ⟨other, heq ▸ List.mem_append_left _ ho, hother⟩

/-- Readings none of which reads a file again. -/
theorem LooksUpFirst.of_fresh {readings : List Reading} (h : ∀ reading ∈ readings, reading.again = false) :
    LooksUpFirst readings := by
  rintro before reading behind rfl hagain
  have hfresh := h reading (List.mem_append_right _ List.mem_cons_self)
  exact absurd hagain (Bool.eq_false_iff.mp hfresh)

/-- Readings that look up what they read again may follow others that do. -/
theorem LooksUpFirst.append {readings others : List Reading} (h : LooksUpFirst readings) (h' : LooksUpFirst others) :
    LooksUpFirst (readings ++ others) := by
  intro before reading behind heq hagain
  rcases List.append_eq_append_iff.mp heq with ⟨more, rfl, hothers⟩ | ⟨more, hreadings, hrest⟩
  · obtain ⟨other, ho, hother⟩ := h' more reading behind hothers hagain
    exact ⟨other, List.mem_append_right _ ho, hother⟩
  · cases more with
    | nil =>
      obtain ⟨other, ho, -⟩ := h' [] reading behind hrest.symm hagain
      nomatch ho
    | cons first more =>
      obtain ⟨rfl, -⟩ := List.cons.inj hrest
      exact h before reading more hreadings hagain

theorem LooksUpFirst.flatMap {α : Type} {items : List α} {readings : α → List Reading}
    (h : ∀ item ∈ items, LooksUpFirst (readings item)) : LooksUpFirst (items.flatMap readings) := by
  induction items with
  | nil => exact .of_fresh nofun
  | cons item items ih =>
    exact (h item List.mem_cons_self).append (ih fun other ho => h other (List.mem_cons_of_mem _ ho))

/-- Readings that look up their locations look them up for those who read them again behind. -/
theorem looksUpFirst_append {readings others : List Reading} (h : ∀ reading ∈ readings, reading.again = false)
    (h' : ∀ other ∈ others, ∃ reading ∈ readings, reading.location = other.location) : LooksUpFirst (readings ++ others) := by
  intro before reading behind heq hagain
  rcases List.append_eq_append_iff.mp heq with ⟨more, rfl, rfl⟩ | ⟨more, rfl, hrest⟩
  · obtain ⟨other, ho, hlocation⟩ := h' reading (List.mem_append_right _ List.mem_cons_self)
    exact ⟨other, List.mem_append_left _ ho, hlocation, h other ho⟩
  · cases more with
    | nil =>
      obtain rfl : others = reading :: behind := hrest.symm
      obtain ⟨other, ho, hlocation⟩ := h' reading List.mem_cons_self
      rw [List.append_nil] at ho h
      exact ⟨other, ho, hlocation, h other ho⟩
    | cons first more =>
      obtain ⟨rfl, -⟩ := List.cons.inj hrest
      exact LooksUpFirst.of_fresh h before reading more rfl hagain

/-- In a pass the file of its own profile is looked up before it is read again. -/
theorem looksUpFirst_readings {profile : Option String} : LooksUpFirst (plan.readings earlier profile) := by
  refine .flatMap fun place _ => ?_
  split
  · refine .flatMap fun name _ => .flatMap fun extension _ => ?_
    cases profile with
    | none =>
      refine .of_fresh fun reading hr => ?_
      obtain rfl := List.mem_singleton.mp hr
      rfl
    | some this =>
      refine looksUpFirst_append (fun reading hr => ?_) fun other ho => ?_
      · rcases List.mem_append.mp hr with hr | hr
        · simp only [List.mem_cons, List.not_mem_nil, or_false] at hr
          rcases hr with rfl | rfl <;> rfl
        · obtain ⟨other, -, rfl⟩ := List.mem_map.mp hr
          rfl
      · -- The file that is read again has the location of the second reading.
        obtain rfl := List.mem_singleton.mp ho
        exact ⟨_, List.mem_append_left _ (List.mem_cons_of_mem _ List.mem_cons_self), rfl⟩
  · exact .of_fresh fun reading hr => (eq_of_mem_fileReadings hr).1

/-- In an itinerary each file that is read again was looked up before. -/
theorem looksUpFirst_itinerary : LooksUpFirst (plan.itinerary processed) := by
  refine looksUpFirst_readings.append ?_
  generalize ([] : List String) = earlier
  induction processed generalizing earlier with
  | nil => exact .of_fresh nofun
  | cons profile processed ih => exact looksUpFirst_readings.append (ih _)

/-- The locations of an itinerary are those that are looked up in it. -/
theorem mem_locations_itinerary {location : String} :
    location ∈ ((plan.itinerary processed).filter (!·.again)).map (·.location) ↔
      location ∈ (plan.itinerary processed).map (·.location) := by
  constructor
  · intro h
    exact (List.filter_sublist.map _).subset h
  · intro h
    obtain ⟨reading, hr, rfl⟩ := List.mem_map.mp h
    obtain ⟨other, ho, hlocation, hagain⟩ := looksUpFirst_itinerary.looksUpAll reading hr
    exact List.mem_map.mpr ⟨other, List.mem_filter.mpr ⟨ho, by rw [hagain]; rfl⟩, hlocation⟩

end SearchPlan

/-- The readings that a visit makes: none if it passes by a place. -/
def Visit.readings : Visit → List Reading
  | .file location extension wanted => [{ location, extension, wanted }]
  | .again location extension wanted => [{ location, extension, wanted, again := true }]
  | .passBy _ => []

namespace SearchPlan

variable {plan : SearchPlan} {earlier : List String} {profile : Option String}

/-- The extension of a place is the text behind its last dot, if there is a dot and no slash behind it. -/
theorem extensionOf?_eq (place : String) : extensionOf? place =
    if '.' ∈ place.toList ∧ '/' ∉ behindLastDot place then some (String.ofList (behindLastDot place)) else none := by
  unfold extensionOf?
  by_cases hdot : '.' ∈ place.toList
  · obtain ⟨before, hcut⟩ := Text.exists_cutLast_of_mem hdot
    rw [hcut]
    change (if (behindLastDot place).contains '/' then none else some (String.ofList (behindLastDot place))) = _
    by_cases hslash : '/' ∈ behindLastDot place
    · rw [if_pos (List.contains_iff_mem.mpr hslash), if_neg fun h => h.2 hslash]
    · rw [if_neg fun h => hslash (List.contains_iff_mem.mp h), if_pos ⟨hdot, hslash⟩]
  · rw [Text.cutLast_eq_none hdot, if_neg fun h => hdot h.1]

/-- The visits to a place that is a file make its reading, if there is a format for it. -/
theorem readings_fileVisits (place : String) :
    (plan.fileVisits place profile).flatMap Visit.readings = plan.fileReadings profile place := by
  unfold fileVisits fileReadings
  rw [extensionOf?_eq]
  by_cases hextension : '.' ∈ place.toList ∧ '/' ∉ behindLastDot place
  · rw [if_pos hextension]
    simp only [Formats.format?_eq_formatOf?]
    by_cases hknown : (plan.formats.formatOf? (String.ofList (behindLastDot place))).isSome = true
    · rw [if_pos hknown, if_pos ⟨hextension.1, hextension.2, hknown⟩]
      rfl
    · rw [if_neg hknown, if_neg fun h => hknown h.2.2]
      rfl
  · rw [if_neg hextension, if_neg fun h => hextension ⟨h.1, h.2.1⟩]
    rfl

/-- A place is a directory if its last character is a slash. -/
theorem endsWith_slash_iff (place : String) : Text.endsWith "/" place = true ↔ place.toList.getLast? = some '/' := by
  rw [Text.endsWith, List.isPrefixOf_iff_prefix, ← List.head?_reverse]
  cases place.toList.reverse with
  | nil => exact ⟨fun h => absurd h (by decide), nofun⟩
  | cons c rest => simp [eq_comm]

/-- The visits for a base name with an extension make the readings of its files. -/
theorem readings_nameVisits (place name extension : String) :
    (nameVisits earlier profile place name extension).flatMap Visit.readings =
      nameReadings earlier profile place name extension := by
  cases profile with
  | none => rfl
  | some this =>
    have hothers : (earlier.map fun other => Visit.file (place ++ (name ++ "-" ++ other) ++ "." ++ extension) extension
        (some this)).flatMap Visit.readings = earlier.map fun other =>
          { location := place ++ (name ++ "-" ++ other) ++ "." ++ extension, extension, wanted := some this } := by
      rw [List.flatMap_map, List.map_eq_flatMap]
      rfl
    simp only [nameVisits, List.flatMap_append, hothers]
    rfl

/-- The visits of a pass make its readings. -/
theorem readings_visits : (plan.visits earlier profile).flatMap Visit.readings = plan.readings earlier profile := by
  rw [visits, readings, List.flatMap_assoc]
  refine List.flatMap_congr fun place _ => ?_
  simp only [endsWith_slash_iff]
  split
  · rw [directoryVisits, List.flatMap_assoc]
    refine List.flatMap_congr fun name _ => ?_
    rw [List.flatMap_assoc, Formats.extensions_eq_allExtensions]
    exact List.flatMap_congr fun extension _ => readings_nameVisits place name extension
  · exact readings_fileVisits place

end SearchPlan

namespace Discovery

open Progress
open Relation (ReflTransGen)

/-! ## What visits read and look up -/

section Visits

variable {plan : SearchPlan} {resources : Resources} {profile : Option String} {p q : Progress} {layer : Layer}

/-- A search has gone on by some readings: it has taken the layers that they give, has looked up the locations of those that do not read
a file again, and has come to the end of no pass. -/
structure WentOn (plan : SearchPlan) (resources : Resources) (readings : List Reading) (p q : Progress) : Prop where
  /-- The layers that the readings give have been taken. -/
  loaded : q.loaded = p.loaded ++ readings.filterMap (·.layer? plan.formats resources)
  /-- The locations have been looked up. -/
  probed : q.probed = p.probed ++ (readings.filter (!·.again)).map (·.location)
  /-- The profiles whose passes are over are the same. -/
  processed : q.processed = p.processed

theorem WentOn.refl (p : Progress) : WentOn plan resources [] p p :=
  ⟨(List.append_nil _).symm, (List.append_nil _).symm, rfl⟩

/-- What went on by some readings and then by others went on by both. -/
theorem WentOn.trans {r : Progress} {readings others : List Reading} (h : WentOn plan resources readings p q)
    (h' : WentOn plan resources others q r) : WentOn plan resources (readings ++ others) p r := by
  refine ⟨?_, ?_, h'.processed.trans h.processed⟩
  · rw [h'.loaded, h.loaded, List.filterMap_append, List.append_assoc]
  · rw [h'.probed, h.probed, List.filter_append, List.map_append, List.append_assoc]

/-- A single reading may look its location up, and may take a layer. -/
theorem WentOn.single {reading : Reading} (hloaded : q.loaded = p.loaded ++ (reading.layer? plan.formats resources).toList)
    (hprobed : q.probed = p.probed ++ if reading.again then [] else [reading.location]) (hprocessed : q.processed = p.processed) :
    WentOn plan resources [reading] p q := by
  refine ⟨?_, ?_, hprocessed⟩
  · rw [hloaded]
    cases hlayer : reading.layer? plan.formats resources <;> simp [hlayer]
  · rw [hprobed]
    cases hagain : reading.again <;> simp [hagain]

/-- Accepting a layer takes it, and nothing is looked up for it. -/
theorem accept_went (h : p.accept layer = .ok q) :
    q.loaded = p.loaded ++ [layer] ∧ q.probed = p.probed ∧ q.processed = p.processed := by
  obtain ⟨active, included, rfl⟩ := accept_eq_take h
  refine ⟨?_, ?_, processed_take⟩
  · rw [loaded, history_take, Milestone.layers_append_layer, loaded]
  · rw [take, includeProfiles_eq]
    simp only [reach]
    rw [request_eq]

/-- A reading gives no layer where no file is found. -/
theorem layer?_eq_none {formats : Formats} {reading : Reading}
    (h : ∀ resource, resources reading.location ≠ .ok (some resource)) : reading.layer? formats resources = none := by
  unfold Reading.layer?
  split
  · rename_i resource _ hresource
    exact absurd hresource (h resource)
  · rfl

/-- Reading what is found at a location takes the layer that the reading gives. -/
theorem readLayer_went (reading : Reading) {resource : Resource}
    (hfound : resources reading.location = .ok (some resource))
    (h : (readLayer plan resource reading.location reading.extension reading.wanted).run.run p = (.ok (), q)) :
    q.loaded = p.loaded ++ (reading.layer? plan.formats resources).toList ∧ q.probed = p.probed ∧
      q.processed = p.processed := by
  unfold readLayer at h
  unfold Reading.layer?
  rw [hfound, ← Formats.format?_eq_formatOf?, reading.layerName_eq]
  cases hformat : plan.formats.format? reading.extension with
  | none =>
    rw [hformat] at h
    cases h
    exact ⟨(List.append_nil _).symm, rfl, rfl⟩
  | some format =>
    rw [hformat] at h
    simp only at h ⊢
    cases hread : format.read (layerName reading.location reading.wanted) resource reading.wanted with
    | error cause => rw [hread] at h; cases h
    | ok found =>
      rw [hread] at h
      cases found with
      | none =>
        cases h
        exact ⟨(List.append_nil _).symm, rfl, rfl⟩
      | some layer =>
        simp only [run_bind, run_note, run_get] at h
        split at h
        · rename_i accepted haccept
          cases h
          obtain ⟨hloaded, hprobed, hprocessed⟩ := accept_went haccept
          exact ⟨hloaded, hprobed, hprocessed⟩
        · cases h

/-- Looking up a location answers what is found there, and notes the location. -/
theorem lookUp_went {location : String} {found : Option Resource}
    (h : (lookUp resources profile location).run.run p = (.ok found, q)) :
    (q.loaded = p.loaded ∧ q.probed = p.probed ++ [location] ∧ q.processed = p.processed) ∧
      ∀ resource, found = some resource ↔ resources location = .ok (some resource) := by
  unfold lookUp at h
  simp only [run_bind, run_modify] at h
  cases hanswer : resources location with
  | ok answer =>
    cases answer with
    | some resource =>
      rw [hanswer] at h
      cases h
      exact ⟨⟨rfl, rfl, rfl⟩, fun other => by simp⟩
    | none =>
      rw [hanswer] at h
      cases h
      exact ⟨⟨rfl, rfl, rfl⟩, fun other => by simp⟩
  | error cause =>
    cases cause with
    | unsupported unknown =>
      rw [hanswer] at h
      cases h
      exact ⟨⟨rfl, rfl, rfl⟩, fun other => by simp⟩
    | read unreadable reason => rw [hanswer] at h; cases h

/-- A visit goes on by its readings. -/
theorem visit_went {aim : Visit} (h : (visit plan resources profile aim).run.run p = (.ok (), q)) :
    WentOn plan resources aim.readings p q := by
  cases aim with
  | file location extension wanted =>
    simp only [visit, run_bind] at h
    cases hlook : (lookUp resources profile location).run.run p with
    | mk result q₁ =>
      rw [hlook] at h
      cases result with
      | error error => cases h
      | ok found =>
        obtain ⟨⟨hloaded, hprobed, hprocessed⟩, hfound⟩ := lookUp_went hlook
        cases found with
        | none =>
          cases h
          refine .single ?_ hprobed hprocessed
          rw [hloaded, layer?_eq_none fun resource hr => absurd ((hfound resource).mpr hr) (Option.some_ne_none resource).symm]
          exact (List.append_nil _).symm
        | some resource =>
          obtain ⟨hloaded', hprobed', hprocessed'⟩ :=
            readLayer_went { location, extension, wanted } ((hfound resource).mp rfl) h
          exact .single (by rw [hloaded', hloaded]) (by rw [hprobed', hprobed]; rfl) (hprocessed'.trans hprocessed)
  | again location extension wanted =>
    simp only [visit] at h
    split at h
    · rename_i resource hfound
      obtain ⟨hloaded, hprobed, hprocessed⟩ :=
        readLayer_went { location, extension, wanted, again := true } hfound h
      exact .single hloaded (by rw [hprobed]; exact (List.append_nil _).symm) hprocessed
    · rename_i hnone
      cases h
      refine .single ?_ (List.append_nil _).symm rfl
      rw [layer?_eq_none hnone]
      exact (List.append_nil _).symm
  | passBy location =>
    cases h
    exact ⟨(List.append_nil _).symm, (List.append_nil _).symm, rfl⟩

/-- The visits of a pass go on by their readings. -/
theorem visits_went {visits : List Visit} (h : (visits.forM (visit plan resources profile)).run.run p = (.ok (), q)) :
    WentOn plan resources (visits.flatMap Visit.readings) p q := by
  induction visits generalizing p with
  | nil =>
    cases h
    exact .refl _
  | cons aim visits ih =>
    have hrun : (visit plan resources profile aim >>= fun _ => visits.forM (visit plan resources profile)).run.run p =
        (.ok (), q) := h
    rw [run_bind] at hrun
    cases hvisit : (visit plan resources profile aim).run.run p with
    | mk result q₁ =>
      rw [hvisit] at hrun
      cases result with
      | error error => cases hrun
      | ok =>
        rw [List.flatMap_cons]
        exact (visit_went hvisit).trans (ih hrun)

end Visits

/-! ## Following the itinerary -/

section Followed

variable {plan : SearchPlan} {resources : Resources} {env : Environment} {p q start finish : Progress}

/-- A search between two passes has followed the itinerary for the profiles processed. -/
structure Followed (plan : SearchPlan) (resources : Resources) (p : Progress) : Prop where
  /-- The layers taken are those that the readings of the itinerary give. -/
  loaded : p.loaded = (plan.itinerary p.processed.names).filterMap (·.layer? plan.formats resources)
  /-- The locations looked up are those of the itinerary. -/
  probed : p.probed = ((plan.itinerary p.processed.names).filter (!·.again)).map (·.location)

/-- When a search begins, nothing has been taken, looked up or processed. -/
theorem start_fresh (h : Progress.start env = .ok p) : p.loaded = [] ∧ p.probed = [] ∧ p.processed.names = [] := by
  obtain ⟨included, declared, -, -, -, -, rfl⟩ := start_eq_ok h
  have hseed := @seed_eq included declared env []
  have hhistory := congrArg Progress.history hseed
  have hprobed := congrArg Progress.probed hseed
  have hprocessed := congrArg Progress.processed hseed
  simp only [history_asked, processed_asked] at hhistory hprocessed
  refine ⟨by rw [loaded, hhistory]; rfl, ?_, by rw [hprocessed]; rfl⟩
  rw [hprobed]
  simp only [asked, enqueue]
  rw [request_eq]

/-- The pass for no profile follows the itinerary for no profiles. -/
theorem followed_unfiltered (hloaded : p.loaded = []) (hprobed : p.probed = []) (hprocessed : p.processed.names = [])
    (h : ((plan.visits [] none).forM (visit plan resources none)).run.run p = (.ok (), q)) :
    Followed plan resources q := by
  have hwent := visits_went h
  rw [SearchPlan.readings_visits] at hwent
  have hitinerary : plan.itinerary q.processed.names = plan.readings [] none := by
    rw [hwent.processed, hprocessed]
    exact List.append_nil _
  refine ⟨?_, ?_⟩
  · rw [hwent.loaded, hloaded, hitinerary, List.nil_append]
  · rw [hwent.probed, hprobed, hitinerary, List.nil_append]

/-- The pass for a profile follows the itinerary on. -/
theorem Followed.filtered {profile : Profile} {rest : List (Option Profile)} (hp : Followed plan resources p)
    (hnew : p.processed.contains profile.name = false)
    (h : ((plan.visits p.processed.names (some profile.name)).forM (visit plan resources (some profile.name))).run.run
      (beginning p profile rest) = (.ok (), q)) :
    Followed plan resources { q with processed := q.processed.insert profile } := by
  have hwent := visits_went h
  rw [SearchPlan.readings_visits] at hwent
  have hnames : (q.processed.insert profile).names = p.processed.names ++ [profile.name] := by
    rw [hwent.processed]
    exact ProfileSet.names_insert_of_notMem (ProfileSet.contains_eq_false_iff.mp hnew)
  have hbeginning : (beginning p profile rest).loaded = p.loaded := Milestone.layers_append_pass _ _
  refine ⟨?_, ?_⟩
  · have hloaded := hwent.loaded
    rw [hbeginning, hp.loaded, ← List.filterMap_append, ← SearchPlan.itinerary_concat, ← hnames] at hloaded
    exact hloaded
  · have hprobed := hwent.probed
    have hbegan : (beginning p profile rest).probed = p.probed := rfl
    rw [hbegan, hp.probed, ← List.map_append, ← List.filter_append, ← SearchPlan.itinerary_concat, ← hnames] at hprobed
    exact hprobed

/-- A turn behind the pass for no profile follows the itinerary. -/
theorem Followed.turn (hp : Followed plan resources p) (hturn : Turn plan resources p q) (hnone : none ∉ p.waiting) :
    Followed plan resources q := by
  cases hturn with
  | unfiltered hw _ => exact absurd (hw ▸ List.mem_cons_self) hnone
  | skipped _ _ => exact ⟨hp.loaded, hp.probed⟩
  | filtered _ hnew hrun => exact hp.filtered hnew hrun

/-- A search that came to its end has followed the itinerary. Behind the first turn, which makes the pass for no profile, the search stays
orderly as it follows the itinerary. -/
theorem Completed.followed {discovery : Discovery} (h : Completed discovery resources env plan start finish) :
    Followed plan resources finish := by
  have hkept := orderly_kept env plan resources
  have hrest : ∀ {a b : Progress}, ReflTransGen (Turn plan resources) a b → Orderly env none a → Followed plan resources a →
      Followed plan resources b := by
    intro a b hab horderly ha
    induction hab using ReflTransGen.head_induction_on with
    | refl => exact ha
    | head hturn _ ih => exact ih (hkept.turn hturn horderly) (ha.turn hturn (hkept.waiting horderly))
  obtain ⟨rest, hw, horderly⟩ := orderly_start h.start_eq
  rcases h.turns.cases_head with rfl | ⟨p₁, hturn, hturns⟩
  · rw [h.done] at hw
    cases hw
  · obtain ⟨hloaded, hprobed, hprocessed⟩ := start_fresh h.start_eq
    cases hturn with
    | unfiltered hw' hrun =>
      rw [hw] at hw'
      cases hw'
      have hbegan : (({ start with waiting := rest } : Progress).reach (.pass none)).loaded = [] :=
        (Milestone.layers_append_pass _ _).trans hloaded
      have horderly₁ := hkept.visits hrun horderly
      rw [hprocessed] at hrun
      exact hrest hturns horderly₁ (followed_unfiltered hbegan hprobed hprocessed hrun)
    | skipped hw' _ => rw [hw] at hw'; cases hw'
    | filtered hw' _ _ => rw [hw] at hw'; cases hw'

end Followed

/-- The names of the layers that some readings give are the names that those ask for which give one. -/
theorem names_filterMap_layer? {formats : Formats} {resources : Resources} (hformats : formats.NamesAsAsked)
    (readings : List Reading) : (readings.filterMap (·.layer? formats resources)).map (·.name) =
      (readings.filter fun reading => (reading.layer? formats resources).isSome).map (·.layerName) := by
  induction readings with
  | nil => rfl
  | cons reading readings ih =>
    cases hlayer : reading.layer? formats resources with
    | none => simp [hlayer, ih]
    | some layer => simp [hlayer, ih, Reading.name_of_layer? hformats hlayer]

/-- An environment without a list has no entries of one. -/
theorem configuredList_of_none {env : Environment} {key : String} (h : env.get? key = none) : configuredList env key = .ok [] := by
  rw [configuredList, h]

/-- In a search that came to its end, with formats that give each layer the name that they are asked to give it, the layers read are those
that the itinerary for the profiles processed gives, where a file is found and holds a layer; and the locations looked up are those of the
itinerary, in order, but for the files that are read again. The places and the base names of the itinerary are those of the search; they
are the ones configured if the environment names no others. -/
theorem loaded_eq_itinerary_of_run (discovery : Discovery) (resources : Resources) (env : Environment) (found : Discovered)
    (hformats : discovery.formats.NamesAsAsked) (h : (discovery.run resources env).result = .ok found) :
    ∃ locations names, discovery.searchLocations env = .ok locations ∧ discovery.searchNames env = .ok names ∧
      (env.get? Key.searchLocations = none → locations = discovery.locations) ∧
      (env.get? Key.searchNames = none → names = discovery.names) ∧
      let itinerary := SearchPlan.itinerary { formats := discovery.formats, locations, names } found.processed
      found.loaded =
          (itinerary.filter fun reading => (reading.layer? discovery.formats resources).isSome).map (·.layerName) ∧
        (discovery.run resources env).probed = (itinerary.filter (!·.again)).map (·.location) ∧
        ∀ location, location ∈ (discovery.run resources env).probed ↔ location ∈ itinerary.map (·.location) := by
  obtain ⟨plan, start, finish, hrun⟩ := run_eq_ok h
  obtain ⟨hloaded, hprocessed⟩ := hrun.found_eq h
  obtain ⟨locations, names, hlocations, hnames, hplan⟩ := plan_eq_ok hrun.plan_eq
  have hfollowed := hrun.followed
  have hprobed : (discovery.run resources env).probed = finish.probed := by rw [hrun.outcome_eq]
  subst hplan
  refine ⟨locations, names, hlocations, hnames, fun hnone => ?_, fun hnone => ?_, ?_⟩
  · rw [searchLocations, configuredList_of_none hnone] at hlocations
    exact (Except.ok.inj hlocations).symm
  · rw [searchNames, configuredList_of_none hnone] at hnames
    exact (Except.ok.inj hnames).symm
  · rw [hloaded, hprocessed, hprobed, hfollowed.loaded, hfollowed.probed]
    exact ⟨names_filterMap_layer? hformats _, rfl, fun location => SearchPlan.mem_locations_itinerary⟩

/-- Files for two profiles, in a format whose documents may be for profiles. -/
def filesForProfiles : Resources :=
  Resources.ofList [("classpath:/application.yml", "a: 1\nliftoff.profiles.active: x,y\n---\nliftoff.profiles: y\na: 2"),
    ("classpath:/application-x.yml", "b: 1\n---\nliftoff.profiles: '!z'\nb: 2"),
    ("classpath:/application-y.yml", "liftoff.profiles: y\nc: 1"),
    ("classpath:/more.d/extra.YML", "d: 1\n---\nliftoff.profiles: y\nd: 2"),
    ("classpath:/more.d/extra", "e: 1")]

/-- A search in a directory and in two files by themselves, one of which has no extension. -/
def searchOfFiles : Discovery where
  locations := ["classpath:/", "classpath:/more.d/extra.YML", "classpath:/more.d/extra"]

/-- The file of the first profile is read for no profile, for its own, and for the second one; the file that is a place by itself is read
in each pass, and the one without an extension in none. -/
theorem loaded_eq_itinerary_of_run_filesForProfiles :
    let found : Discovered :=
      { loaded := ["applicationConfig: [classpath:/application.yml]", "applicationConfig: [classpath:/more.d/extra.YML]",
          "applicationConfig: [classpath:/application-x.yml]",
          "applicationConfig: [classpath:/application-x.yml] (profile=x)",
          "applicationConfig: [classpath:/application.yml] (profile=y)",
          "applicationConfig: [classpath:/application-x.yml] (profile=y)",
          "applicationConfig: [classpath:/application-y.yml] (profile=y)",
          "applicationConfig: [classpath:/more.d/extra.YML] (profile=y)"]
        processed := ["x", "y"] }
    let itinerary := SearchPlan.itinerary
      { formats := Formats.standard, locations := searchOfFiles.locations, names := ["application"] } found.processed
    searchOfFiles.formats.NamesAsAsked ∧ (searchOfFiles.run filesForProfiles {}).result = .ok found ∧
      found.loaded =
        (itinerary.filter fun reading => (reading.layer? Formats.standard filesForProfiles).isSome).map (·.layerName) ∧
      (searchOfFiles.run filesForProfiles {}).probed = (itinerary.filter (!·.again)).map (·.location) ∧
      "classpath:/more.d/extra.YML" ∈ (searchOfFiles.run filesForProfiles {}).probed ∧
      "classpath:/more.d/extra" ∉ (searchOfFiles.run filesForProfiles {}).probed := by
  intro found itinerary
  have hrun : (searchOfFiles.run filesForProfiles {}).result = .ok found := by decide +kernel
  obtain ⟨locations, names, -, -, hlocations, hnames, hloaded, hprobed, hmem⟩ :=
    loaded_eq_itinerary_of_run _ _ _ _ Formats.standard_namesAsAsked hrun
  obtain rfl : locations = searchOfFiles.locations := hlocations rfl
  obtain rfl : names = ["application"] := hnames rfl
  refine ⟨Formats.standard_namesAsAsked, hrun, hloaded, hprobed, (hmem _).mpr ?_, mt (hmem _).mp ?_⟩
  · decide +kernel
  · decide +kernel

end Discovery

end Ignition
