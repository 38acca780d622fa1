import MediaCache.Proofs.Json.Written
import MediaCache.Schema.Mutation

/-!
# The JSON form of mutations

What is written of a mutation or of a record is read back as it was. Reading looks at known members
only, so further ones change nothing.
-/

namespace MediaCache

/-! ## Members that are read -/

theorem Assoc.ordered_of_keys {α β : Type} [Ord α] {l : List (α × β)}
    (h : (l.map (·.1)).Pairwise (compare · · = .lt)) : Ordered l :=
  List.pairwise_map.1 h

namespace Json

theorem strings?_strings (l : List String) : strings? (strings l) = some l := by
  have hmap : (l.map Json.string).mapM asString? = some l := by
    induction l with
    | nil => rfl
    | cons s rest ih => simp [asString?, ih]
  exact hmap

theorem sorted_strings (l : List String) : (strings l).Sorted := by
  refine sortedItems_iff.2 fun v hv => ?_
  obtain ⟨s, -, rfl⟩ := List.mem_map.1 hv
  trivial

/-- The members with these names are the same; others may be in one object only. -/
def Fields.AgreeOn (keys : List String) (fields others : Fields) : Prop :=
  ∀ key ∈ keys, Assoc.get? key others = Assoc.get? key fields

end Json

namespace MutationKind

/-- JSON has its names from another table, and they are the same names. -/
theorem jsonName_eq_name (kind : MutationKind) : kind.jsonName = kind.name := by
  cases kind <;> decide +kernel

@[simp]
theorem ofJsonName?_jsonName (kind : MutationKind) : ofJsonName? kind.jsonName = some kind := by
  simp only [ofJsonName?, jsonName_eq_name]
  cases kind <;> decide +kernel

def variableNames : MutationKind → List String
  | sceneCreate => ["file_ids"]
  | bulkSceneUpdate | scenesUpdate | scenesDestroy | bulkImageUpdate | imagesDestroy
  | bulkMovieUpdate | moviesDestroy | bulkGalleryUpdate | galleryDestroy | bulkPerformerUpdate
  | performersDestroy | studiosDestroy | tagsDestroy | deleteFiles => ["ids"]
  | sceneSetPrimaryFile | imageSetPrimaryFile | gallerySetPrimaryFile => ["file_id", "id"]
  | sceneAssignFile => ["file_id", "scene_id"]
  | sceneMerge | tagsMerge => ["destination", "source"]
  | sceneSaveActivity => ["id", "play_duration", "resume_time"]
  | sceneMarkerCreate => ["scene_id"]
  | sceneMarkerUpdate => ["id", "scene_id"]
  | addGalleryImages | removeGalleryImages => ["gallery_id", "image_ids"]
  | galleryChapterCreate => ["gallery_id"]
  | studioCreate => ["parent_id"]
  | movieCreate | galleryCreate | performerCreate | tagCreate | saveFilter | setDefaultFilter
  | configureGeneral | configureInterface | configureDefaults | configureUi | configureScraping
  | configureDlna | generateApiKey | setup | migrate => []
  | _ => ["id"]

end MutationKind

namespace Mutation

@[simp]
theorem keys_input (m : Mutation) : m.input.map (·.1) = m.kind.variableNames := by
  cases m <;> rfl

theorem ofInput?_agreeOn {kind : MutationKind} {input others : Json.Fields}
    (h : Json.Fields.AgreeOn kind.variableNames input others) :
    ofInput? others kind = ofInput? input kind := by
  cases kind <;> simp [Json.Fields.AgreeOn, MutationKind.variableNames] at h <;>
    simp [ofInput?, Json.Fields.required?, Json.Fields.orDefault?, Json.Fields.optional?, h]

theorem kind_of_ofInput? {kind : MutationKind} {input : Json.Fields} {m : Mutation}
    (h : ofInput? input kind = some m) : m.kind = kind := by
  cases kind <;> simp [ofInput?, Option.bind_eq_some_iff] at h <;> grind [Mutation.kind]

theorem ofInput?_input (m : Mutation) : ofInput? m.input m.kind = some m := by
  cases m
  -- A variable that may be missing is written as `null`.
  case sceneSaveActivity id resumeTime playDuration =>
    cases resumeTime <;> cases playDuration <;> rfl
  case studioCreate parentId => cases parentId <;> rfl
  all_goals
    simp [ofInput?, input, kind, Json.Fields.required?, Json.Fields.orDefault?, Assoc.get?,
      Json.strings?_strings, Json.asString?]

/-! ## A mutation -/

/-- The members of the input, where a missing or `null` input has none. -/
def inputFields? : Option Json → Option Json.Fields
  | none | some .null => some []
  | some (.object input) => some input
  | some _ => none

theorem ofJson?_object (fields : Json.Fields) :
    ofJson? (.object fields) = (Json.Fields.required? fields "name" kindOfJson?).bind fun kind =>
      (inputFields? (Assoc.get? "input" fields)).bind fun input => ofInput? input kind := by
  unfold ofJson?
  refine Option.bind_congr fun kind _ => ?_
  split <;> rename_i hinput <;> rw [hinput]
  · rfl
  · rfl
  · rfl
  · rename_i v _ _
    cases v <;> first | rfl | simp_all

theorem ofJson?_toJson (m : Mutation) : ofJson? m.toJson = some m := by
  have hname : Json.Fields.required? [("input", .object m.input), ("name", .string m.kind.jsonName)]
      "name" kindOfJson? = some m.kind := by
    simp [Json.Fields.required?, Assoc.get?, kindOfJson?, Json.unitName?]
  rw [toJson, ofJson?_object, hname, Option.bind_some, Assoc.get?_cons_self]
  exact ofInput?_input m

theorem sorted_input (m : Mutation) : (Json.object m.input).Sorted := by
  refine ⟨Assoc.ordered_of_keys ?_, Json.sortedFields_iff.2 ?_⟩
  · rw [keys_input]
    cases m.kind <;> decide
  · cases m
    case sceneSaveActivity id resumeTime playDuration =>
      cases resumeTime <;> cases playDuration <;> simp [input, Json.ofOption, Json.Sorted]
    case studioCreate parentId => cases parentId <;> simp [input, Json.ofOption, Json.Sorted]
    all_goals simp [input, Json.Sorted, Json.sorted_strings]

theorem sorted_toJson (m : Mutation) : m.toJson.Sorted :=
  ⟨Assoc.ordered_of_keys (show ["input", "name"].Pairwise (compare · · = .lt) by decide),
    m.sorted_input, trivial, trivial⟩

/-- The same input, perhaps with members that the mutation does not read. -/
inductive WidenedInput (m : Mutation) : Option Json → Option Json → Prop
  | missing : WidenedInput m none none
  | null : WidenedInput m (some .null) (some .null)
  | object {input others : Json.Fields}
      (h : Json.Fields.AgreeOn m.kind.variableNames input others) :
      WidenedInput m (some (.object input)) (some (.object others))

inductive Widened (m : Mutation) : Json → Json → Prop
  | object {fields others : Json.Fields} (hname : Json.Fields.AgreeOn ["name"] fields others)
      (hinput : WidenedInput m (Assoc.get? "input" fields) (Assoc.get? "input" others)) :
      Widened m (.object fields) (.object others)
  | list {name input other : Json} (h : WidenedInput m (some input) (some other)) :
      Widened m (.array [name, input]) (.array [name, other])

variable {m : Mutation} {v w : Json}

theorem WidenedInput.ofInput? {input other : Option Json} (h : WidenedInput m input other)
    {kind : MutationKind}
    (hm : (inputFields? input).bind (fun fields => Mutation.ofInput? fields kind) = some m) :
    (inputFields? other).bind (fun fields => Mutation.ofInput? fields kind) = some m := by
  cases h with
  | missing => exact hm
  | null => exact hm
  | object h =>
    obtain rfl := kind_of_ofInput? hm
    exact (ofInput?_agreeOn h).trans hm

theorem Widened.ofJson? (h : Widened m v w) (hm : Mutation.ofJson? v = some m) :
    Mutation.ofJson? w = some m := by
  cases h with
  | object hname hinput =>
    rw [ofJson?_object] at hm ⊢
    obtain ⟨kind, hkind, hm⟩ := Option.bind_eq_some_iff.1 hm
    rw [Json.Fields.required?, hname "name" (List.mem_singleton_self _)]
    exact Option.bind_eq_some_iff.2 ⟨kind, hkind, hinput.ofInput? hm⟩
  | @list name input other h =>
    cases name with
    | string s =>
      cases h with
      | null => cases hm
      | object h =>
        obtain ⟨kind, hkind, hm⟩ := Option.bind_eq_some_iff.1 hm
        exact Option.bind_eq_some_iff.2 ⟨kind, hkind, (WidenedInput.object h).ofInput? hm⟩
    | _ => cases hm

end Mutation

/-! ## A record -/

namespace Written

@[simp]
theorem keysReadable_ofFields (fields : Json.Fields) : keysReadable (ofFields fields) = true := by
  induction fields with
  | nil => rfl
  | cons e rest ih => exact ih

theorem filter_ofFields {fields : Json.Fields} (h : (fields.map (·.1)).Nodup) (key : String) :
    (ofFields fields).filter (fun e => e.1 == some key) =
      ((Assoc.get? key fields).map fun v => (some key, ofJson v)).toList := by
  induction fields with
  | nil => rfl
  | cons e rest ih =>
    obtain ⟨j, v⟩ := e
    obtain ⟨hj, hrest⟩ := List.nodup_cons.1 h
    rw [ofFields]
    by_cases hkey : key = j
    · subst hkey
      rw [List.filter_cons_of_pos (by simp), ih hrest, Assoc.get?_eq_none_iff.2 hj,
        Assoc.get?_cons_self]
      rfl
    · rw [List.filter_cons_of_neg (by simpa using Ne.symm hkey), ih hrest, Assoc.get?_cons_of_ne hkey]

theorem single?_ofFields {fields : Json.Fields} (h : (fields.map (·.1)).Nodup) (key : String) :
    single? (ofFields fields) key = some ((Assoc.get? key fields).map ofJson) := by
  rw [single?, filter_ofFields h]
  cases Assoc.get? key fields <;> rfl

end Written

namespace MutationRecord

theorem ofJson?_object {fields : Json.Fields} (h : (Json.object fields).Sorted) :
    ofJson? (.object fields) = (Assoc.get? "mutation" fields).bind fun v =>
      (Mutation.ofJson? v).map fun m => ⟨m, (Assoc.get? "result" fields).bind resultOf⟩ := by
  have hmember {key : String} {v : Json} (hv : Assoc.get? key fields = some v) :
      (Written.ofJson v).value? none = some v :=
    Written.value?_ofJson v (Json.sortedFields_iff.1 h.2 _ (Assoc.mem_of_get? hv))
      (Written.Limit.covers_none _)
  simp only [ofJson?, Written.ofJson, ofWritten?, Written.Limit.enter?,
    Written.keysReadable_ofFields, Written.single?_ofFields h.1.nodup_keys, Option.bind_eq_bind,
    Option.bind_some]
  cases hmutation : Assoc.get? "mutation" fields with
  | none => rfl
  | some v =>
    cases hresult : Assoc.get? "result" fields with
    | none =>
      simp only [Option.map_some, Option.map_none, Option.bind_some, Option.bind_none,
        hmember hmutation]
      cases Mutation.ofJson? v <;> rfl
    | some result =>
      simp only [Option.map_some, Option.bind_some, hmember hmutation, hmember hresult]
      cases Mutation.ofJson? v <;> rfl

theorem ofJson?_list {v : Json} {result : Option Json} (hv : v.Sorted)
    (hresult : ∀ w ∈ result, w.Sorted) :
    ofJson? (.array (v :: result.toList)) =
      (Mutation.ofJson? v).map fun m => ⟨m, result.bind resultOf⟩ := by
  have hread := Written.value?_ofJson v hv (Written.Limit.covers_none _)
  cases result with
  | none =>
    simp only [ofJson?, Option.toList_none, Written.ofJson, Written.ofItems, ofWritten?,
      Written.Limit.enter?, Option.bind_eq_bind, Option.bind_some, Option.bind_none, hread]
    cases Mutation.ofJson? v <;> rfl
  | some w =>
    have hreadResult := Written.value?_ofJson w (hresult w rfl) (Written.Limit.covers_none _)
    simp only [ofJson?, Option.toList_some, Written.ofJson, Written.ofItems, ofWritten?,
      Written.Limit.enter?, Option.bind_eq_bind, Option.bind_some, hread, hreadResult]
    cases Mutation.ofJson? v <;> rfl

theorem sorted_list_iff {v : Json} {result : Option Json} :
    (Json.array (v :: result.toList)).Sorted ↔ v.Sorted ∧ ∀ w ∈ result, w.Sorted := by
  cases result <;> simp [Json.Sorted, Json.SortedItems]

structure Readable (r : MutationRecord) : Prop where
  sorted : ∀ v ∈ r.result, v.Sorted
  ne_null : r.result ≠ some .null

theorem readable_resultOf {m : Mutation} {result : Option Json} (h : ∀ v ∈ result, v.Sorted) :
    Readable ⟨m, result.bind resultOf⟩ := by
  match result with
  | none => exact ⟨nofun, nofun⟩
  | some .null => exact ⟨nofun, nofun⟩
  | some (.bool _) | some (.number _) | some (.string _) | some (.array _) | some (.object _) =>
    exact ⟨h, nofun⟩

theorem Readable.resultOf_getD {r : MutationRecord} (h : r.Readable) :
    resultOf (r.result.getD .null) = r.result := by
  cases hresult : r.result with
  | none => rfl
  | some v =>
    cases v with
    | null => exact absurd hresult h.ne_null
    | _ => rfl

theorem ofJson?_toJson {r : MutationRecord} (h : r.Readable) : ofJson? r.toJson = some r := by
  have hsorted : r.toJson.Sorted := by
    refine ⟨Assoc.ordered_of_keys
      (show ["mutation", "result"].Pairwise (compare · · = .lt) by decide),
      r.mutation.sorted_toJson, ?_, trivial⟩
    cases hresult : r.result with
    | none => trivial
    | some v => exact h.sorted v hresult
  have hget : Assoc.get? "result"
      [("mutation", r.mutation.toJson), ("result", r.result.getD .null)] =
        some (r.result.getD .null) := by
    rw [Assoc.get?_cons_of_ne (by decide), Assoc.get?_cons_self]
  rw [toJson, ofJson?_object hsorted, Assoc.get?_cons_self, Option.bind_some,
    Mutation.ofJson?_toJson, hget, Option.map_some, Option.bind_some, h.resultOf_getD]

/-- The same record, perhaps with members other than `mutation` and `result`, and with further members
in the mutation and in its input. -/
inductive Widened (m : Mutation) : Json → Json → Prop
  | object {fields others : Json.Fields}
      (hmutation : Option.Rel m.Widened (Assoc.get? "mutation" fields) (Assoc.get? "mutation" others))
      (hresult : Json.Fields.AgreeOn ["result"] fields others) :
      Widened m (.object fields) (.object others)
  | list {v w : Json} (h : m.Widened v w) (result : Option Json) :
      Widened m (.array (v :: result.toList)) (.array (w :: result.toList))

theorem Widened.ofJson? {r : MutationRecord} {v w : Json} (h : Widened r.mutation v w)
    (hv : v.Sorted) (hw : w.Sorted) (hr : MutationRecord.ofJson? v = some r) :
    MutationRecord.ofJson? w = some r := by
  cases h with
  | @object fields others hmutation hresult =>
    rw [ofJson?_object hv] at hr
    rw [ofJson?_object hw, hresult "result" (List.mem_singleton_self _)]
    obtain ⟨inner, hinner, hr⟩ := Option.bind_eq_some_iff.1 hr
    obtain ⟨m, hm, rfl⟩ := Option.map_eq_some_iff.1 hr
    rw [hinner] at hmutation
    cases hother : Assoc.get? "mutation" others with
    | none =>
      rw [hother] at hmutation
      cases hmutation
    | some other =>
      rw [hother] at hmutation
      cases hmutation with
      | some hwidened => rw [Option.bind_some, hwidened.ofJson? hm, Option.map_some]
  | list hwidened result =>
    obtain ⟨hv, hresult⟩ := sorted_list_iff.1 hv
    rw [ofJson?_list hv hresult] at hr
    obtain ⟨m, hm, rfl⟩ := Option.map_eq_some_iff.1 hr
    rw [ofJson?_list (sorted_list_iff.1 hw).1 hresult, hwidened.ofJson? hm, Option.map_some]

theorem readable_of_list {v : Json} (result : Option Json) {r : MutationRecord}
    (hv : (Json.array (v :: result.toList)).Sorted)
    (h : ofJson? (.array (v :: result.toList)) = some r) : r.Readable := by
  obtain ⟨hv, hresult⟩ := sorted_list_iff.1 hv
  rw [ofJson?_list hv hresult] at h
  obtain ⟨m, -, rfl⟩ := Option.map_eq_some_iff.1 h
  exact readable_resultOf hresult

theorem readable_of_ofJson? {v : Json} {r : MutationRecord} (hv : v.Sorted)
    (h : ofJson? v = some r) : r.Readable := by
  match v with
  | .null | .bool _ | .number _ | .string _ => cases h
  | .object fields =>
    rw [ofJson?_object hv] at h
    obtain ⟨w, -, h⟩ := Option.bind_eq_some_iff.1 h
    obtain ⟨m, -, rfl⟩ := Option.map_eq_some_iff.1 h
    exact readable_resultOf fun w hw => Json.sortedFields_iff.1 hv.2 _ (Assoc.mem_of_get? hw)
  | .array [] | .array (_ :: _ :: _ :: _) => cases h
  | .array [w] => exact readable_of_list none hv h
  | .array [w, result] => exact readable_of_list (some result) hv h

/-- Mutations and records survive being written. What else is written beside their members does not
matter, and an input that is missing or `null` is an input without members. -/
theorem codec_roundTrip :
    (∀ m : Mutation, Mutation.ofJson? m.toJson = some m ∧
      m.toJson.field? "name" = some (.string m.kind.name)) ∧
    (∀ (v : Json) (r : MutationRecord), v.Sorted → ofJson? v = some r →
      ofJson? r.toJson = some r ∧
      ∀ w : Json, w.Sorted → Widened r.mutation v w → ofJson? w = some r) ∧
    ∀ fields : Json.Fields,
      Assoc.get? "input" fields = none ∨ Assoc.get? "input" fields = some .null →
      Mutation.ofJson? (.object fields) =
        Mutation.ofJson? (.object (Assoc.insert "input" (.object []) fields)) := by
  refine ⟨fun m => ⟨m.ofJson?_toJson, ?_⟩, fun v r hv h => ⟨?_, ?_⟩, fun fields hinput => ?_⟩
  · rw [Mutation.toJson, Json.field?, Assoc.get?_cons_of_ne (by decide), Assoc.get?_cons_self,
      MutationKind.jsonName_eq_name]
  · exact ofJson?_toJson (readable_of_ofJson? hv h)
  · exact fun w hw hwidened => hwidened.ofJson? hv hw h
  · have hempty : Mutation.inputFields? (Assoc.get? "input" fields) = some [] := by
      rcases hinput with hinput | hinput <;> rw [hinput] <;> rfl
    rw [Mutation.ofJson?_object, Mutation.ofJson?_object, hempty, Assoc.get?_insert_self,
      Json.Fields.required?, Json.Fields.required?, Assoc.get?_insert_of_ne (by decide)]
    rfl

def savedPosition : Json :=
  .object [
    ("mutation", .object [
      ("input", .object [("id", .string "1"), ("resume_time", .int 90)]),
      ("name", .string "sceneSaveActivity")]),
    ("result", .bool true)]

def annotatedPosition : Json :=
  .object [
    ("at", .string "noon"),
    ("mutation", .object [
      ("input", .object [("details", .null), ("id", .string "1"), ("resume_time", .int 90)]),
      ("name", .string "sceneSaveActivity"),
      ("user", .int 7)]),
    ("result", .bool true)]

def positionRecord : MutationRecord :=
  ⟨.sceneSaveActivity "1" (some (.ofInt 90)) none, some (.bool true)⟩

theorem annotatedPosition_read :
    savedPosition.Sorted ∧ ofJson? savedPosition = some positionRecord ∧
      annotatedPosition.Sorted ∧ Widened positionRecord.mutation savedPosition annotatedPosition ∧
      ofJson? positionRecord.toJson = some positionRecord ∧
      ofJson? annotatedPosition = some positionRecord := by
  have hsaved : savedPosition.Sorted := by decide
  have hread : ofJson? savedPosition = some positionRecord := by decide +kernel
  have hannotated : annotatedPosition.Sorted := by decide
  have hwidened : Widened positionRecord.mutation savedPosition annotatedPosition := by
    refine .object (.some (.object ?_ (.object ?_))) ?_ <;>
      simp [Json.Fields.AgreeOn, positionRecord, Mutation.kind, MutationKind.variableNames, Assoc.get?]
  obtain ⟨hwritten, hwider⟩ := codec_roundTrip.2.1 savedPosition positionRecord hsaved hread
  exact ⟨hsaved, hread, hannotated, hwidened, hwritten, hwider _ hannotated hwidened⟩

end MutationRecord

end MediaCache
