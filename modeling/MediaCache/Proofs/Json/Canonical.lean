import MediaCache.Json.Canonical
import MediaCache.Proofs.Json.Text
import MediaCache.Proofs.Json.Written
import MediaCache.Proofs.Number.Whole

/-!
# Canonical text that reads back

Canonical text is compact text with the members of every object in another order, and reading puts them
back. So two values share their canonical text only if they are one value, as long as all their numbers
are integers of at most 2^53.
-/

namespace MediaCache

namespace Json

/-! ## The order of members -/

def keyLE (a b : String × β) : Bool := (List.decidableLE (sortKey a.1) (sortKey b.1)).decide

mutual

/-- The value with its members in the order of canonical text, at every depth. -/
def arranged : Json → Json
  | array items => array (arrangedItems items)
  | object fields => object ((arrangedFields fields).mergeSort keyLE)
  | v => v

def arrangedItems : List Json → List Json
  | [] => []
  | v :: rest => arranged v :: arrangedItems rest

def arrangedFields : List (String × Json) → List (String × Json)
  | [] => []
  | (key, v) :: rest => (key, arranged v) :: arrangedFields rest

end

theorem arrangedItems_eq (items : List Json) : arrangedItems items = items.map arranged := by
  induction items with
  | nil => rw [arrangedItems, List.map_nil]
  | cons v rest ih => rw [arrangedItems, ih, List.map_cons]

theorem arrangedFields_eq (fields : Fields) : arrangedFields fields = Assoc.mapValues arranged fields := by
  induction fields with
  | nil => rfl
  | cons e rest ih =>
    obtain ⟨key, v⟩ := e
    rw [arrangedFields, ih]
    rfl

theorem mergeSort_map (f : String × α → β) (l : List (String × α)) :
    (l.map fun e => (e.1, f e)).mergeSort keyLE = (l.mergeSort keyLE).map fun e => (e.1, f e) :=
  Eq.symm (List.map_mergeSort fun _ _ _ _ => by rfl)

theorem arranged_object (fields : Fields) :
    (object fields).arranged = object (Assoc.mapValues arranged (fields.mergeSort keyLE)) := by
  rw [arranged, arrangedFields_eq]
  exact congrArg object (mergeSort_map (fun e : String × Json => e.2.arranged) fields)

/-! ## Compact text -/

theorem Layout.spaced_compact : Layout.compact.Spaced :=
  ⟨fun _ => List.forall_mem_nil _, [], rfl, List.forall_mem_nil _⟩

theorem intersperse_writeFields (text : List Char) (fields : Fields) (depth : Nat) :
    ((text :: fields.map fun e => quote e.1 ++ ':' :: write .compact depth e.2).intersperse [',']).flatten =
      text ++ writeFields .compact depth fields := by
  induction fields generalizing text with
  | nil => simp [writeFields]
  | cons e rest ih =>
    obtain ⟨key, v⟩ := e
    rw [List.map_cons, List.intersperse_cons_cons, List.flatten_cons, List.flatten_cons, ih, writeFields]
    simp [Layout.compact]

theorem write_compact_object (fields : Fields) (depth : Nat) :
    write .compact depth (object fields) =
      '{' :: ((fields.map fun e => quote e.1 ++ ':' :: write .compact (depth + 1) e.2).intersperse
        [',']).flatten ++ ['}'] := by
  cases fields with
  | nil => rw [write]; rfl
  | cons e rest =>
    obtain ⟨key, v⟩ := e
    rw [List.map_cons, intersperse_writeFields, write]
    simp [Layout.compact]

/-! ## Canonical text is compact text -/

/-- All numbers in the value are integers of at most 2^53, as doubles hold them exactly. -/
def Exact (v : Json) : Prop := ∀ n, number n ∈ v.parts → ∃ i : Int, n = .integer i ∧ i.natAbs ≤ 2 ^ 53

mutual

theorem canonical_eq : ∀ (v : Json) (depth : Nat), v.Exact →
    v.canonical = write .compact depth v.arranged
  | .null, _, _ | .bool true, _, _ | .bool false, _, _ => rfl
  | .string s, _, _ => rfl
  | .number n, depth, h => by
    obtain ⟨i, rfl, hi⟩ := h n (by rw [parts_of_isScalar rfl]; exact List.mem_singleton_self _)
    exact Number.writeCanonical_integer hi
  | .array [], depth, _ => rfl
  | .array (v :: rest), depth, h => by
    obtain ⟨hv, hrest⟩ := List.forall_mem_cons.1 (forall_number_array.1 h)
    rw [canonical, canonical_eq v (depth + 1) hv, canonicalItems_eq rest (depth + 1) hrest, arranged,
      arrangedItems, write]
    simp [Layout.compact]
  | .object fields, depth, h => by
    rw [canonical, canonicalFields_eq fields (depth + 1) (forall_number_object.1 h), arranged,
      write_compact_object]
    have hsorted := mergeSort_map (fun e => quote e.1 ++ ':' :: write .compact (depth + 1) e.2)
      (arrangedFields fields)
    have htexts := congrArg (List.map Prod.snd) hsorted
    rw [List.map_map] at htexts
    exact congrArg (fun texts => '{' :: (texts.intersperse [',']).flatten ++ ['}']) htexts

theorem canonicalItems_eq : ∀ (items : List Json) (depth : Nat), (∀ v ∈ items, v.Exact) →
    canonicalItems items = writeItems .compact depth (arrangedItems items)
  | [], _, _ => by rw [canonicalItems, arrangedItems, writeItems]
  | v :: rest, depth, h => by
    obtain ⟨hv, hrest⟩ := List.forall_mem_cons.1 h
    rw [canonicalItems, arrangedItems, writeItems, canonical_eq v depth hv,
      canonicalItems_eq rest depth hrest]
    rfl

theorem canonicalFields_eq : ∀ (fields : Fields) (depth : Nat), (∀ e ∈ fields, e.2.Exact) →
    canonicalFields fields =
      (arrangedFields fields).map fun e => (e.1, quote e.1 ++ ':' :: write .compact depth e.2)
  | [], _, _ => by rw [canonicalFields, arrangedFields, List.map_nil]
  | (key, v) :: rest, depth, h => by
    obtain ⟨hv, hrest⟩ := List.forall_mem_cons.1 h
    rw [canonicalFields, arrangedFields, List.map_cons, canonical_eq v depth hv,
      canonicalFields_eq rest depth hrest]

end

/-! ## Reading it back -/

theorem Exact.legible {v : Json} (h : v.Exact) : v.Legible := by
  intro n hn
  obtain ⟨i, rfl, hi⟩ := h n hn
  unfold Number.Readable
  omega

mutual

theorem legible_arranged : ∀ v : Json, v.Legible → v.arranged.Legible
  | .null, h | .bool _, h | .number _, h | .string _, h => h
  | .array items, h => by
    rw [arranged, arrangedItems_eq]
    exact legible_array.2 (legible_arrangedItems items (legible_array.1 h))
  | .object fields, h => by
    have hfields := legible_arrangedFields fields (legible_object.1 h)
    rw [arranged]
    exact legible_object.2 fun e he => hfields e (List.mem_mergeSort.1 he)

theorem legible_arrangedItems : ∀ items : List Json, (∀ v ∈ items, v.Legible) →
    ∀ v ∈ items.map arranged, v.Legible
  | [], _ => List.forall_mem_nil _
  | v :: rest, h => by
    obtain ⟨hv, hrest⟩ := List.forall_mem_cons.1 h
    exact List.forall_mem_cons.2 ⟨legible_arranged v hv, legible_arrangedItems rest hrest⟩

theorem legible_arrangedFields : ∀ fields : Fields, (∀ e ∈ fields, e.2.Legible) →
    ∀ e ∈ arrangedFields fields, e.2.Legible
  | [], _ => List.forall_mem_nil _
  | (key, v) :: rest, h => by
    obtain ⟨hv, hrest⟩ := List.forall_mem_cons.1 h
    exact List.forall_mem_cons.2 ⟨legible_arranged v hv, legible_arrangedFields rest hrest⟩

end

end Json

namespace Written

theorem members?_mapValues {limit : Limit} {f : Json → Json} {fields : Json.Fields}
    (h : ∀ e ∈ fields, value? limit (ofJson (f e.2)) = some e.2) (read : Json.Fields) :
    members? limit (ofFields (Assoc.mapValues f fields)) read = some (Assoc.insertAll fields read) := by
  induction fields generalizing read with
  | nil => rfl
  | cons e rest ih =>
    obtain ⟨key, v⟩ := e
    obtain ⟨hv, hrest⟩ := List.forall_mem_cons.1 h
    change members? limit ((some key, ofJson (f v)) :: ofFields (Assoc.mapValues f rest)) read = _
    rw [members?, Option.bind_some, hv, Option.bind_some, ih hrest]
    rfl

mutual

theorem value?_arranged : ∀ v : Json, v.Sorted → value? none (ofJson v.arranged) = some v
  | .null, _ | .bool _, _ | .number _, _ | .string _, _ => rfl
  | .array items, h => by
    rw [Json.arranged, ofJson, value?, Limit.enter?, Option.bind_some, values?_arranged items h,
      Option.map_some]
  | .object fields, h => by
    have hmembers := members_arranged fields h.2
    have hread : members? none (ofFields (Assoc.mapValues Json.arranged (fields.mergeSort Json.keyLE))) [] =
        some (Assoc.ofList (fields.mergeSort Json.keyLE)) :=
      members?_mapValues (fun e he => hmembers e (List.mem_mergeSort.1 he)) []
    rw [Json.arranged_object, ofJson, value?, Limit.enter?, Option.bind_some, hread, Option.map_some]
    rw [h.1.ofList_of_perm (List.mergeSort_perm _ _)]

theorem values?_arranged : ∀ items : List Json, Json.SortedItems items →
    values? none (ofItems (Json.arrangedItems items)) = some items
  | [], _ => rfl
  | v :: rest, h => by
    rw [Json.arrangedItems, ofItems, values?, value?_arranged v h.1, values?_arranged rest h.2]
    rfl

theorem members_arranged : ∀ fields : Json.Fields, Json.SortedFields fields →
    ∀ e ∈ fields, value? none (ofJson e.2.arranged) = some e.2
  | [], _ => List.forall_mem_nil _
  | (_, v) :: rest, h => List.forall_mem_cons.2 ⟨value?_arranged v h.1, members_arranged rest h.2⟩

end

end Written

namespace Json

theorem read_canonical {v : Json} (hsorted : v.Sorted) (hexact : v.Exact) :
    (tokens? v.canonical).bind (fun ts => (Written.ofTokens? ts).bind (Written.value? none)) = some v := by
  have hlegible := legible_arranged v hexact.legible
  have htokens := tokens?_write Layout.spaced_compact hlegible (List.forall_mem_nil _)
  rw [List.append_nil, ← canonical_eq v 0 hexact] at htokens
  rw [htokens, Option.bind_some, Written.ofTokens?_tokens hlegible, Option.bind_some]
  exact Written.value?_arranged v hsorted

theorem canonical_inj {v w : Json} (hv : v.Sorted) (hw : w.Sorted) (hv' : v.Exact) (hw' : w.Exact) :
    v.canonical = w.canonical ↔ v = w := by
  constructor
  · intro h
    have hread := read_canonical hv hv'
    rw [h, read_canonical hw hw'] at hread
    exact (Option.some.inj hread).symm
  · exact congrArg canonical

/-! ## One line -/

theorem newline_not_mem_escape (c : Char) : '\n' ∉ escape c := by
  have hescaped := escaped_escape c
  generalize escape c = text at *
  cases hescaped with
  | @short letter hletter h =>
    have hplain : '\n' ≠ letter := by
      rintro rfl
      cases h
    simp [hplain]
  | code h =>
    have hdigit : ∀ n < 16, '\n' ≠ hexDigit n := by decide
    simp [hdigit (c.toNat / 16) (by omega), hdigit (c.toNat % 16) (by omega)]
  | plain hquote hbackslash h =>
    have hplain : '\n' ≠ c := by
      rintro rfl
      exact h (by decide)
    simp [hplain]

theorem newline_not_mem_quote (s : String) : '\n' ∉ quote s := by
  simp [quote, newline_not_mem_escape]

theorem newline_not_mem_number (n : Number) : '\n' ∉ n.writeCanonical := by
  intro h
  have hnumber := NumberLiteral.isNumberChar_double .canonical n.asDouble _ h
  exact absurd hnumber (by decide)

theorem forall_mem_intersperse {p : List Char → Prop} {sep : List Char} (hsep : p sep) :
    ∀ {l : List (List Char)}, (∀ text ∈ l, p text) → ∀ text ∈ l.intersperse sep, p text
  | [], h | [_], h => h
  | text :: next :: rest, h => by
    obtain ⟨htext, hrest⟩ := List.forall_mem_cons.1 h
    rw [List.intersperse_cons_cons]
    exact List.forall_mem_cons.2 ⟨htext, List.forall_mem_cons.2 ⟨hsep, forall_mem_intersperse hsep hrest⟩⟩

mutual

/-- Line breaks are escaped inside strings and stand nowhere else. -/
theorem newline_not_mem_canonical : ∀ v : Json, '\n' ∉ v.canonical
  | .null | .bool true | .bool false => by decide
  | .number n => newline_not_mem_number n
  | .string s => newline_not_mem_quote s
  | .array [] => by decide
  | .array (v :: rest) => by
    have hv := newline_not_mem_canonical v
    have hrest := newline_not_mem_canonicalItems rest
    rw [canonical]
    simp [hv, hrest]
  | .object fields => by
    have hfields := newline_not_mem_canonicalFields fields
    rw [canonical]
    simp only [List.cons_append, List.mem_cons, List.mem_append, List.mem_flatten]
    rintro (heq | ⟨text, htext, hmem⟩ | heq)
    · exact absurd heq (by decide)
    · refine forall_mem_intersperse (p := fun text => '\n' ∉ text) (by decide) ?_ text htext hmem
      intro text htext
      obtain ⟨e, he, rfl⟩ := List.mem_map.1 htext
      exact hfields e (List.mem_mergeSort.1 he)
    · exact absurd heq (by decide)

theorem newline_not_mem_canonicalItems : ∀ items : List Json, '\n' ∉ canonicalItems items
  | [] => by
    rw [canonicalItems]
    exact List.not_mem_nil
  | v :: rest => by
    have hv := newline_not_mem_canonical v
    have hrest := newline_not_mem_canonicalItems rest
    rw [canonicalItems]
    simp [hv, hrest]

theorem newline_not_mem_canonicalFields : ∀ fields : Fields,
    ∀ e ∈ canonicalFields fields, '\n' ∉ e.2
  | [] => by
    rw [canonicalFields]
    exact List.forall_mem_nil _
  | (key, v) :: rest => by
    have hkey := newline_not_mem_quote key
    have hv := newline_not_mem_canonical v
    rw [canonicalFields]
    refine List.forall_mem_cons.2 ⟨?_, newline_not_mem_canonicalFields rest⟩
    simp [hkey, hv]

end

end Json

end MediaCache
