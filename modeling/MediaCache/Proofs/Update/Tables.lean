import MediaCache.Proofs.Store.Rows
import MediaCache.Proofs.Update.TypeFields
import MediaCache.Update.Impact

/-!
# What the impact tables name

Facts about all tables: they name queries for lists where lists are evicted and look-ups where an
object is deleted, and no field that an object is identified by.
-/

namespace MediaCache

def Document.IsList (doc : Document) : Prop := doc ∈ Document.all ∧ doc.singleObject = none

instance (doc : Document) : Decidable doc.IsList := inferInstanceAs (Decidable (_ ∧ _))

namespace TypeFields

def SparesIdentity (fields : TypeFields) : Prop :=
  ∀ t, ∀ name ∈ identityFields, fields.covers t name = false

variable {a b : TypeFields}

theorem sparesIdentity_iff :
    a.SparesIdentity ↔ ∀ t name, a.covers t name = true → name ∉ identityFields := by
  constructor
  · intro h t name hcovers hname
    rw [h t name hname] at hcovers
    cases hcovers
  · intro h t name hname
    cases hcovers : a.covers t name with
    | false => rfl
    | true => exact absurd hname (h t name hcovers)

theorem sparesIdentity_ofRows {rows : List (Typename × List String)}
    (h : ∀ row ∈ rows, ∀ name ∈ row.2, name ∉ identityFields) : (ofRows rows).SparesIdentity := by
  refine sparesIdentity_iff.2 fun t name hcovers => ?_
  obtain ⟨row, hrow, -, hname⟩ := (covers_ofRows rows t name).1 hcovers
  exact h row hrow name hname

theorem SparesIdentity.union (ha : a.SparesIdentity) (hb : b.SparesIdentity) :
    (a.union b).SparesIdentity := by
  refine sparesIdentity_iff.2 fun t name hcovers => ?_
  rcases (covers_union a b t name).1 hcovers with hin | hin
  · exact sparesIdentity_iff.1 hb t name hin
  · exact sparesIdentity_iff.1 ha t name hin

theorem SparesIdentity.add (ha : a.SparesIdentity) (t : Typename) {names : List String}
    (hnames : ∀ name ∈ names, name ∉ identityFields) : (a.add t names).SparesIdentity := by
  refine sparesIdentity_iff.2 fun u name hcovers => ?_
  rcases (covers_add a t u names name).1 hcovers with ⟨-, hname⟩ | hin
  · exact hnames name hname
  · exact sparesIdentity_iff.1 ha u name hin

end TypeFields

namespace Impact

/-! ## Queries -/

theorem isList_queries (family : Family) : ∀ doc ∈ (of family).queries, doc.IsList := by
  cases family <;> decide

theorem isList_queriesOnCreate (family : Family) :
    ∀ doc ∈ (of family).queriesOnCreate, doc.IsList := by
  cases family <;> decide

theorem isList_queriesOnDestroy (family : Family) :
    ∀ doc ∈ (of family).queriesOnDestroy, doc.IsList := by
  cases family <;> decide

theorem isList_counterQueries (family : Family) :
    ∀ doc ∈ (of family).counterQueries, doc.IsList := by
  cases family <;> decide

theorem isList_listQuery (family : Family) : ∀ doc ∈ (of family).listQuery, doc.IsList := by
  cases family <;> decide

theorem isLookup_findQuery (family : Family) : ∀ doc ∈ (of family).findQuery,
    doc ∈ Document.all ∧ doc.singleObject.isSome = true := by
  cases family <;> decide

/-! ## Fields -/

theorem sparesIdentity_fieldsOnChange (family : Family) :
    (of family).fieldsOnChange.SparesIdentity :=
  TypeFields.sparesIdentity_ofRows (by cases family <;> decide)

theorem sparesIdentity_fieldsOnDestroy (family : Family) :
    (of family).fieldsOnDestroy.SparesIdentity :=
  (sparesIdentity_fieldsOnChange family).union
    (TypeFields.sparesIdentity_ofRows (by cases family <;> decide))

theorem createdStat_not_identity (family : Family) :
    ∀ stat ∈ (of family).createdStat, stat ∉ identityFields := by
  cases family <;> decide

theorem destroyedStat_not_identity (family : Family) :
    ∀ stat ∈ (of family).destroyedStat, stat ∉ identityFields := by
  cases family <;> decide

end Impact

end MediaCache
