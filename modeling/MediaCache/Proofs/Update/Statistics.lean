import MediaCache.Proofs.Number.Double
import MediaCache.Proofs.Update.Eviction

/-!
# Additions to the statistics

Among integers an addition is wrapped addition of one member, so additions commute. They neither turn
an integer into another number nor add a reference.
-/

namespace MediaCache

namespace Json

def IntegerIfNumber (v : Json) : Prop := v.asNumber?.isSome = true → v.asInt64?.isSome = true

instance (v : Json) : Decidable v.IntegerIfNumber := inferInstanceAs (Decidable (_ → _))

def IntegerMembers : Json → Prop
  | object fields => ∀ e ∈ fields, e.2.IntegerIfNumber
  | _ => True

instance : (v : Json) → Decidable v.IntegerMembers
  | object fields => inferInstanceAs (Decidable (∀ e ∈ fields, e.2.IntegerIfNumber))
  | null | bool _ | number _ | string _ | array _ => inferInstanceAs (Decidable True)

theorem asInt64?_int (i : Int) : (int i).asInt64? = if inInt64 i then some i else none := rfl

@[simp]
theorem asInt64?_int_wrapInt64 (i : Int) : (int (wrapInt64 i)).asInt64? = some (wrapInt64 i) := by
  rw [asInt64?_int, if_pos (inInt64_wrapInt64 i)]

end Json

open Json

/-! ## One number -/

theorem addNumber?_of_asInt64? {v : Json} {i : Int} (h : v.asInt64? = some i) {delta : Double}
    (hdelta : delta.isWhole = true) :
    addNumber? v delta = some (int (wrapInt64 (i + clampInt64 delta.truncate))) := by
  unfold addNumber?
  rw [h, hdelta]

theorem addNumber?_of_no_number {v : Json} (h : v.asNumber? = none) (delta : Double) :
    addNumber? v delta = none := by
  have hint : v.asInt64? = none := by
    unfold asInt64?
    rw [h, Option.bind_none]
  have hdouble : v.asDouble? = none := by
    unfold asDouble?
    rw [h, Option.map_none]
  unfold addNumber?
  rw [hint, hdouble]
  rfl

theorem isNumber_of_addNumber? {v w : Json} {delta : Double} (h : addNumber? v delta = some w) :
    (∃ n, v = number n) ∧ ∃ n, w = number n := by
  constructor
  · cases v with
    | number n => exact ⟨n, rfl⟩
    | _ =>
      rw [addNumber?_of_no_number rfl] at h
      cases h
  · unfold addNumber? at h
    split at h
    · cases h
      exact ⟨_, rfl⟩
    · obtain ⟨x, -, rfl⟩ := Option.map_eq_some_iff.1 h
      exact ⟨_, rfl⟩

theorem addNumber?_of_integerIfNumber {v : Json} (h : v.IntegerIfNumber) {delta : Double}
    (hdelta : delta.isWhole = true) :
    addNumber? v delta =
      v.asInt64?.map fun i => int (wrapInt64 (i + clampInt64 delta.truncate)) := by
  cases hi : v.asInt64? with
  | some i => exact addNumber?_of_asInt64? hi hdelta
  | none =>
    cases hn : v.asNumber? with
    | none => exact addNumber?_of_no_number hn delta
    | some n =>
      have := h (by rw [hn]; rfl)
      rw [hi] at this
      cases this

namespace Cache

/-! ## One entry -/

def addedInt (stat : String) (n : Int) (stats : Fields) : Fields :=
  match (Assoc.get? stat stats).bind asInt64? with
  | some i => Assoc.insert stat (int (wrapInt64 (i + n))) stats
  | none => stats

theorem addedInt_of_some {stat : String} {stats : Fields} {i : Int}
    (h : (Assoc.get? stat stats).bind asInt64? = some i) (n : Int) :
    addedInt stat n stats = Assoc.insert stat (int (wrapInt64 (i + n))) stats := by
  unfold addedInt
  rw [h]

theorem addedInt_of_none {stat : String} {stats : Fields}
    (h : (Assoc.get? stat stats).bind asInt64? = none) (n : Int) : addedInt stat n stats = stats := by
  unfold addedInt
  rw [h]

theorem get?_addedInt_of_ne {s t : String} (h : s ≠ t) (n : Int) (stats : Fields) :
    Assoc.get? s (addedInt t n stats) = Assoc.get? s stats := by
  unfold addedInt
  split
  · exact Assoc.get?_insert_of_ne h _ _
  · rfl

theorem addedInt_addedInt_self (stat : String) (m n : Int) (stats : Fields) :
    addedInt stat m (addedInt stat n stats) = addedInt stat n (addedInt stat m stats) := by
  cases hi : (Assoc.get? stat stats).bind asInt64? with
  | none => simp only [addedInt_of_none hi]
  | some i =>
    have hself (k : Int) : (Assoc.get? stat (addedInt stat k stats)).bind asInt64? =
        some (wrapInt64 (i + k)) := by
      rw [addedInt_of_some hi, Assoc.get?_insert_self, Option.bind_some, asInt64?_int_wrapInt64]
    rw [addedInt_of_some (hself n), addedInt_of_some (hself m), addedInt_of_some hi,
      addedInt_of_some hi, Assoc.insert_insert_self, Assoc.insert_insert_self,
      wrapInt64_add_right_comm]

theorem addedInt_comm (s t : String) (m n : Int) (stats : Fields) :
    addedInt s m (addedInt t n stats) = addedInt t n (addedInt s m stats) := by
  by_cases hst : s = t
  · subst hst
    exact addedInt_addedInt_self s m n stats
  have hs : (Assoc.get? s (addedInt t n stats)).bind asInt64? = (Assoc.get? s stats).bind asInt64? := by
    rw [get?_addedInt_of_ne hst]
  have ht : (Assoc.get? t (addedInt s m stats)).bind asInt64? = (Assoc.get? t stats).bind asInt64? := by
    rw [get?_addedInt_of_ne (Ne.symm hst)]
  cases hi : (Assoc.get? s stats).bind asInt64? with
  | none => rw [addedInt_of_none hi, addedInt_of_none (hs.trans hi)]
  | some i =>
    cases hj : (Assoc.get? t stats).bind asInt64? with
    | none => rw [addedInt_of_none hj, addedInt_of_none (ht.trans hj)]
    | some j =>
      rw [addedInt_of_some (hs.trans hi), addedInt_of_some (ht.trans hj), addedInt_of_some hi,
        addedInt_of_some hj, Assoc.insert_comm hst]

theorem addedStat_object {stats : Fields} (h : (object stats).IntegerMembers) (stat : String)
    {delta : Double} (hdelta : delta.isWhole = true) :
    addedStat stat delta (object stats) =
      object (addedInt stat (clampInt64 delta.truncate) stats) := by
  unfold addedStat addedInt
  simp only
  cases hv : Assoc.get? stat stats with
  | none => rfl
  | some v =>
    have hmember := h (stat, v) (Assoc.mem_of_get? hv)
    rw [Option.bind_some, Option.bind_some, addNumber?_of_integerIfNumber hmember hdelta]
    cases v.asInt64? <;> rfl

theorem count_addedStat {v : Json} {stat : String} {delta : Double} (hdelta : delta.isWhole = true) :
    ((addedStat stat delta v).field? stat).bind asInt64? =
      ((v.field? stat).bind asInt64?).map fun i => wrapInt64 (i + clampInt64 delta.truncate) := by
  cases v with
  | object stats =>
    unfold addedStat field?
    dsimp only
    cases hold : Assoc.get? stat stats with
    | none => simp only [Option.bind_none, hold, Option.map_none]
    | some old =>
      rw [Option.bind_some, Option.bind_some]
      cases hi : old.asInt64? with
      | some i =>
        rw [addNumber?_of_asInt64? hi hdelta]
        simp only [Assoc.get?_insert_self, Option.bind_some, asInt64?_int_wrapInt64, Option.map_some]
      | none =>
        cases hnext : addNumber? old delta with
        | none => simp only [hold, Option.bind_some, hi, Option.map_none]
        | some next =>
          -- The sum is a double, and a double is no integer.
          simp only [addNumber?, hi] at hnext
          obtain ⟨x, -, rfl⟩ := Option.map_eq_some_iff.1 hnext
          simp only [Assoc.get?_insert_self, Option.bind_some, Option.map_none]
          rfl
  | _ => rfl

theorem integerMembers_addedStat {v : Json} (h : v.IntegerMembers) (stat : String) {delta : Double}
    (hdelta : delta.isWhole = true) : (addedStat stat delta v).IntegerMembers := by
  cases v with
  | object stats =>
    rw [addedStat_object h stat hdelta]
    unfold addedInt
    split
    · intro e he
      rcases Assoc.mem_insert he with rfl | he
      · intro _
        rw [asInt64?_int_wrapInt64]
        rfl
      · exact h e he
    · exact h
  | _ => trivial

theorem addedStat_comm {v : Json} (h : v.IntegerMembers) (s t : String) {a b : Double}
    (ha : a.isWhole = true) (hb : b.isWhole = true) :
    addedStat s a (addedStat t b v) = addedStat t b (addedStat s a v) := by
  cases v with
  | object stats =>
    have hs := integerMembers_addedStat h s ha
    have ht := integerMembers_addedStat h t hb
    rw [addedStat_object h s ha] at hs ⊢
    rw [addedStat_object h t hb] at ht ⊢
    rw [addedStat_object ht s ha, addedStat_object hs t hb, addedInt_comm]
  | _ => rfl

/-- A number is put in the place of a number, so no reference appears. -/
theorem references_addedStat (stat : String) (delta : Double) (v : Json) :
    ∀ id ∈ (addedStat stat delta v).references, id ∈ v.references := by
  cases v with
  | object stats =>
    unfold addedStat
    simp only
    cases hnext : (Assoc.get? stat stats).bind (addNumber? · delta) with
    | none => exact fun id h => h
    | some next =>
      obtain ⟨old, hold, hadd⟩ := Option.bind_eq_some_iff.1 hnext
      obtain ⟨⟨m, rfl⟩, n, rfl⟩ := isNumber_of_addNumber? hadd
      intro id hid
      have hmem : id ∈ referencesOfFields (Assoc.insert stat (number n) stats) := by
        rw [← references_of_number_member (Assoc.get?_insert_self _ _ _)]
        exact hid
      rw [references_of_number_member hold, mem_referencesOfFields]
      obtain ⟨e, he, hin⟩ := mem_referencesOfFields.1 hmem
      rcases Assoc.mem_insert he with rfl | he
      · cases hin
      · exact ⟨e, he, hin⟩
  | _ => exact fun id h => h

end Cache

end MediaCache
