import MediaCache.Proofs.Store.SnapshotText
import MediaCache.Proofs.Update.Stored

/-!
# Mutations and saved caches

A cache that can be saved can be saved after a mutation that was read from text, unless the mutation
returned an object with an empty id or with members that nest too many brackets.
-/

namespace MediaCache

/-! ## Values -/

namespace Json

variable {limit inner : Written.Limit}

theorem textual_reference (henter : Written.Limit.enter? limit = some inner) (id : String) :
    (reference id).Textual limit :=
  Written.textual_object henter (List.pairwise_singleton _ _)
    (List.forall_mem_singleton.2 (Written.textual_text inner id))

theorem hereditary_textual : Hereditary (Textual none) where
  member h := Written.textual_member rfl h
  item h := Written.textual_item rfl h
  list h := Written.textual_array rfl h
  mapped f h hmembers := by
    refine Written.textual_object rfl (h.sorted.1.mapValues f) fun e he => ?_
    obtain ⟨m, hm, rfl⟩ := List.mem_map.1 he
    exact hmembers m hm
  linked := textual_reference rfl

theorem textual_of_addNumber? {v w : Json} {delta : Double} (h : addNumber? v delta = some w)
    (limit : Written.Limit) : w.Textual limit := by
  unfold addNumber? at h
  split at h
  · cases h
    exact Written.textual_number (Number.readable_integer (inInt64_wrapInt64 _)) limit
  · obtain ⟨x, hx, rfl⟩ := Option.map_eq_some_iff.1 h
    obtain ⟨y, -, hsum⟩ := Option.bind_eq_some_iff.1 hx
    have hreadable : Number.Readable (.double x) := Double.valid_of_add? hsum
    exact Written.textual_number hreadable limit

theorem lasting_textual (hroom : limit.Covers 2) : Lasting (Textual limit) where
  null := Written.textual_of_isScalar rfl (legible_of_isScalar rfl fun n hn => by cases hn) limit
  text := Written.textual_text limit
  integer h := Written.textual_number (Number.readable_integer h) limit
  sum h := textual_of_addNumber? h limit
  append id h := by
    obtain ⟨inner, henter, hone⟩ := Written.Limit.enter?_of_covers hroom
    obtain ⟨last, hlast, -⟩ := Written.Limit.enter?_of_covers hone
    refine Written.textual_array henter (List.forall_mem_append.2 ⟨Written.textual_item henter h, ?_⟩)
    exact List.forall_mem_singleton.2 (textual_reference hlast id)
  member key h hw hscalar := by
    obtain ⟨inner, henter, -⟩ := Written.Limit.enter?_of_covers hroom
    refine Written.textual_object henter (h.sorted.1.insert key _) fun e he => ?_
    rcases Assoc.mem_insert he with rfl | he
    · exact Written.textual_of_isScalar hscalar hw.legible inner
    · exact Written.textual_member henter h e he
  without key h := by
    obtain ⟨inner, henter, -⟩ := Written.Limit.enter?_of_covers hroom
    refine Written.textual_object henter (h.sorted.1.erase key) fun e he => ?_
    exact Written.textual_member henter h e (List.mem_of_mem_filter he)

end Json

/-! ## Records that were read -/

theorem Json.Legible.valid_asDouble {v : Json} (hv : v.Legible) {x : Double} (h : v.asDouble? = some x) :
    x.Valid := by
  obtain ⟨n, hn, rfl⟩ := Option.map_eq_some_iff.1 h
  cases v with
  | number m =>
    obtain rfl : m = n := Option.some.inj hn
    have hreadable := Json.legible_number.1 hv
    cases m with
    | integer i =>
      refine Double.valid_ofInt ?_
      unfold Number.Readable at hreadable
      omega
    | double y => exact hreadable
  | _ => cases hn

namespace Mutation

theorem resumeTime_of_ofInput? {input : Json.Fields} {kind : MutationKind} {m : Mutation}
    (h : ofInput? input kind = some m) {time : Double} (htime : time ∈ m.resumeTime?) :
    input.optional? "resume_time" Json.asDouble? = some (some time) := by
  cases m
  case sceneSaveActivity id resumeTime playDuration =>
    cases htime
    cases kind
    case sceneSaveActivity =>
      obtain ⟨scene, -, h⟩ := Option.bind_eq_some_iff.1 h
      obtain ⟨resume, hresume, h⟩ := Option.bind_eq_some_iff.1 h
      obtain ⟨duration, -, h⟩ := Option.bind_eq_some_iff.1 h
      cases h
      exact hresume
    all_goals simp [ofInput?, Option.bind_eq_some_iff] at h
  all_goals cases htime

theorem valid_resumeTime {v : Json} (hv : v.Legible) {m : Mutation} (h : ofJson? v = some m) :
    ∀ time ∈ m.resumeTime?, time.Valid := by
  intro time htime
  have hinput : ∀ {input : Json.Fields} {kind : MutationKind}, (∀ e ∈ input, e.2.Legible) →
      ofInput? input kind = some m → time.Valid := by
    intro input kind hlegible hm
    have hread := resumeTime_of_ofInput? hm htime
    unfold Json.Fields.optional? at hread
    split at hread
    · cases hread
    · cases hread
    · rename_i w hw
      obtain ⟨x, hx, heq⟩ := Option.map_eq_some_iff.1 hread
      cases heq
      exact (hlegible _ (Assoc.mem_of_get? hw)).valid_asDouble hx
  unfold ofJson? at h
  split at h
  · -- An object, whose input may be left out.
    obtain ⟨kind, -, h⟩ := Option.bind_eq_some_iff.1 h
    split at h
    · exact hinput (List.forall_mem_nil _) h
    · exact hinput (List.forall_mem_nil _) h
    · rename_i input hget
      have hmember := Json.legible_object.1 hv _ (Assoc.mem_of_get? hget)
      exact hinput (Json.legible_object.1 hmember) h
    · cases h
  · -- A pair of name and input.
    obtain ⟨kind, -, h⟩ := Option.bind_eq_some_iff.1 h
    have hitem := Json.legible_array.1 hv _ (List.mem_cons_of_mem _ (List.mem_singleton_self _))
    exact hinput (Json.legible_object.1 hitem) h
  · cases h

end Mutation

namespace MutationRecord

/-- The record has numbers that can be written, and objects with their keys in order. -/
structure Textual (r : MutationRecord) : Prop where
  result : ∀ v ∈ r.result, v.Textual none
  time : ∀ time ∈ r.mutation.resumeTime?, time.Valid

theorem textual_of_values {limit : Written.Limit} {w : Written} {v : Json} (hw : w.Legible)
    (hv : w.value? limit = some v) {m : Mutation} (hm : Mutation.ofJson? v = some m)
    {result : Option Json} (hresult : ∀ v ∈ result, v.Textual limit) : Textual ⟨m, result⟩ where
  result v hv := (hresult v hv).unbounded
  time := Mutation.valid_resumeTime (Written.textual_of_value? w hw hv).legible hm

theorem textual_resultOf {limit : Written.Limit} {w : Written} {v : Json} (hw : w.Legible)
    (hv : w.value? limit = some v) : ∀ u ∈ resultOf v, u.Textual limit := by
  intro u hu
  unfold resultOf at hu
  split at hu
  · cases hu
  · cases hu
    exact Written.textual_of_value? w hw hv

theorem textual_of_parse? {text : String} {r : MutationRecord} (h : parse? text = some r) : r.Textual := by
  obtain ⟨w, hw, hr⟩ := Option.bind_eq_some_iff.1 h
  have hlegible := Written.legible_of_parse? hw
  unfold ofWritten? at hr
  split at hr
  · -- An object with members by name.
    rename_i fields
    have hfields := Written.legibleFields_iff.1 hlegible
    obtain ⟨inner, -, hr⟩ := Option.bind_eq_some_iff.1 hr
    split at hr
    · cases hr
    · obtain ⟨found, hfound, hr⟩ := Option.bind_eq_some_iff.1 hr
      obtain ⟨sent, hsent, hr⟩ := Option.bind_eq_some_iff.1 hr
      obtain ⟨v, hv, hr⟩ := Option.bind_eq_some_iff.1 hr
      obtain ⟨m, hm, hr⟩ := Option.bind_eq_some_iff.1 hr
      obtain ⟨other, hother, hr⟩ := Option.bind_eq_some_iff.1 hr
      subst hsent
      obtain ⟨e, he, rfl⟩ := Written.mem_of_single? hfound
      cases other with
      | none =>
        cases hr
        exact textual_of_values (hfields e he) hv hm fun v hv => by cases hv
      | some returned =>
        obtain ⟨u, hu, hr⟩ := Option.bind_eq_some_iff.1 hr
        cases hr
        obtain ⟨o, ho, rfl⟩ := Written.mem_of_single? hother
        exact textual_of_values (hfields e he) hv hm (textual_resultOf (hfields o ho) hu)
  · -- A list of the mutation alone.
    obtain ⟨inner, -, hr⟩ := Option.bind_eq_some_iff.1 hr
    obtain ⟨v, hv, hr⟩ := Option.bind_eq_some_iff.1 hr
    obtain ⟨m, hm, hr⟩ := Option.bind_eq_some_iff.1 hr
    cases hr
    exact textual_of_values hlegible.1 hv hm fun v hv => by cases hv
  · -- A list of the mutation and its result.
    obtain ⟨inner, -, hr⟩ := Option.bind_eq_some_iff.1 hr
    obtain ⟨v, hv, hr⟩ := Option.bind_eq_some_iff.1 hr
    obtain ⟨m, hm, hr⟩ := Option.bind_eq_some_iff.1 hr
    obtain ⟨u, hu, hr⟩ := Option.bind_eq_some_iff.1 hr
    cases hr
    exact textual_of_values hlegible.1 hv hm (textual_resultOf hlegible.2.1 hu)
  · cases hr

end MutationRecord

namespace Cache

variable {c : Cache}

/-! ## Mutations of a cache that can be saved -/

theorem Op.Patches.settings {op : Op} (h : op.Patches) (c : Cache) :
    (op.run c).policies = c.policies ∧ (op.run c).retained = c.retained := by
  cases op with
  | writeRoot field args data =>
    have hsame := sameRoot_storeEntities c data
    exact ⟨hsame.policies, hsame.retained⟩
  | writeField obj field v =>
    rw [Op.run, Cache.writeField]
    split
    · have hset := (sameRoot_applyToField (c.storeEntities v) obj field (.set v.normalized)).1
      have hsame := (sameRoot_storeEntities c v).trans hset
      exact ⟨hsame.policies, hsame.retained⟩
    · exact ⟨rfl, rfl⟩
  | modifyField obj field change =>
    have hsame := (sameRoot_modifyField c obj field change).1
    exact ⟨hsame.policies, hsame.retained⟩
  | modifyRoot field change =>
    have hsame := sameStore_modifyRoot c field change
    exact ⟨hsame.policies, hsame.retained⟩
  | evictObject obj =>
    have hsame := sameRoot_evictObject c obj
    exact ⟨hsame.policies, hsame.retained⟩
  | evictField obj field =>
    have hsame := (sameRoot_modifyField c obj field fun _ => .delete).1
    exact ⟨hsame.policies, hsame.retained⟩
  | evictRoot field =>
    have hsame := sameStore_evictRoot c field
    exact ⟨hsame.policies, hsame.retained⟩
  | collect => exact ⟨rfl, rfl⟩
  | _ => exact h.elim

theorem settings_applyMutation (c : Cache) (options : Options) (now : String) (m : Mutation)
    (result : Option Json) :
    (c.applyMutation options now m result).2.policies = c.policies ∧
      (c.applyMutation options now m result).2.retained = c.retained := by
  refine applyMutation_keeps (P := fun d => d.policies = c.policies ∧ d.retained = c.retained)
    (fun _ _ _ d fields _ h => ?_) (fun op d hop h => ?_) options now ⟨rfl, rfl⟩
  · have hsame := sameRoot_writeObject d (typedResult m.kind.subject fields)
    exact ⟨hsame.policies.trans h.1, hsame.retained.trans h.2⟩
  · have hsame := hop.settings d
    exact ⟨hsame.1.trans h.1, hsame.2.trans h.2⟩

end Cache

/-- What the mutation returned can be saved: its objects have ids, and their members leave room for the
brackets of a snapshot. -/
def MutationRecord.Saves (r : MutationRecord) : Prop :=
  ∀ e ∈ r.mutation.storedEntities r.result, e.1.id ≠ "" ∧ ∀ member ∈ e.2, member.2.depth ≤ 124

instance (r : MutationRecord) : Decidable r.Saves := inferInstanceAs (Decidable (∀ e ∈ _, _))

namespace Cache

variable {c : Cache} {r : MutationRecord}

theorem Stores.applyRecord {limit : Written.Limit} (h : c.Stores (Json.Textual limit))
    (hroom : limit.Covers 2) (hr : r.Textual)
    (hdepth : ∀ e ∈ r.mutation.storedEntities r.result, ∀ member ∈ e.2, limit.Covers member.2.depth)
    (options : Options) (now : String) :
    (c.applyMutation options now r.mutation r.result).2.Stores (Json.Textual limit) := by
  have hstored := r.mutation.good_storedEntities Json.hereditary_textual
    (Json.lasting_textual (Written.Limit.covers_none 2)) hr.result
  refine h.applyMutation (Json.lasting_textual hroom) (fun time htime => ?_)
    (fun e he member hmember => ?_) options now
  · have hreadable : Number.Readable (.double time) := hr.time time htime
    exact Written.textual_number hreadable _
  · have htextual := Written.textual_member rfl (hstored e he) member hmember
    exact ⟨htextual.sorted, htextual.legible, hdepth e he member hmember⟩

theorem Printable.applyMutation (h : c.Printable) (hr : r.Textual) (options : Options) (now : String) :
    (c.applyMutation options now r.mutation r.result).2.Printable where
  stores := h.stores.applyRecord (Written.Limit.covers_none 2) hr
    (fun _ _ _ _ => Written.Limit.covers_none _) options now
  records := h.records.applyMutation (Shape.textual_leaf _) options now r.mutation r.result

theorem Storable.applyMutation (h : c.Storable) (hr : r.Textual) (hsaves : r.Saves)
    (options : Options) (now : String) :
    (c.applyMutation options now r.mutation r.result).2.Storable where
  indexed := h.indexed.applyMutation options now r.mutation r.result
  keyed := h.keyed.applyMutation (fun v hv => (hr.result v hv).sorted) (fun e he => (hsaves e he).1)
    options now
  stores := h.stores.applyRecord (Written.Limit.covers_some.2 (by decide)) hr
    (fun e he member hmember => Written.Limit.covers_some.2 ((hsaves e he).2 member hmember)) options now
  records := h.records.applyMutation (Shape.textual_leaf _) options now r.mutation r.result

end Cache

end MediaCache
