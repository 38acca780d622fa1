import MediaCache.Json.Token
import MediaCache.Proofs.Number.Decimal

/-!
# Numbers that read back

An integer of 64 bits and a double that is its own rounding are read back from the way they are written,
whether all digits of the double are written or a power of ten.
-/

namespace MediaCache

open Json

def Number.Readable : Number → Prop
  | integer i => -0x8000000000000000 ≤ i ∧ i < 0x10000000000000000
  | double x => x.Valid

theorem Number.readable_integer {i : Int} (h : inInt64 i = true) : (integer i).Readable := by
  simp only [inInt64, decide_eq_true_eq] at h
  unfold Readable
  omega

namespace Json.NumberLiteral

/-! ## Digits -/

theorem readDigits_toDigits (n : Nat) : readDigits (Nat.toDigits 10 n) = n :=
  Nat.ofDigitChars_ten_toDigits

theorem readDigits_zeros_append (n : Nat) (cs : List Char) :
    readDigits (List.replicate n '0' ++ cs) = readDigits cs := by
  have happend := Nat.ofDigitChars_append (b := 10) (l := List.replicate n '0') (m := cs) 0
  rw [Nat.ofDigitChars_replicate_zero, Nat.mul_zero] at happend
  exact happend

theorem readDigits_append_zeros (cs : List Char) (n : Nat) :
    readDigits (cs ++ List.replicate n '0') = readDigits cs * 10 ^ n := by
  have happend := Nat.ofDigitChars_append (b := 10) (l := cs) (m := List.replicate n '0') 0
  rw [Nat.ofDigitChars_replicate_zero, Nat.mul_comm] at happend
  exact happend

/-- Digits that may stand before a point: there are some, and zero leads none. -/
structure Leading (digits : List Char) : Prop where
  ne_nil : digits ≠ []
  isDigit : ∀ c ∈ digits, c.isDigit = true
  zero : digits.head? = some '0' → digits.length = 1

theorem isDigit_toDigits {n : Nat} {c : Char} (h : c ∈ Nat.toDigits 10 n) : c.isDigit = true :=
  Nat.isDigit_of_mem_toDigits (by decide) (by decide) h

theorem head?_toDigits {n : Nat} (h : n ≠ 0) : (Nat.toDigits 10 n).head? ≠ some '0' := by
  induction n using Nat.strongRecOn with
  | ind n ih =>
    rw [Nat.toDigits_eq_if (by decide)]
    split
    · rename_i hlt
      have hdigit : ∀ k < 10, k ≠ 0 → k.digitChar ≠ '0' := by decide
      exact fun hzero => hdigit n hlt h (Option.some.inj hzero)
    · have hbefore := ih (n / 10) (by omega) (by omega)
      obtain ⟨c, cs, hcs⟩ := List.exists_cons_of_ne_nil (Nat.toDigits_ne_nil (n := n / 10) (b := 10))
      rw [hcs] at hbefore ⊢
      exact hbefore

theorem leading_toDigits (n : Nat) : Leading (Nat.toDigits 10 n) := by
  refine ⟨Nat.toDigits_ne_nil, fun c hc => isDigit_toDigits hc, fun hzero => ?_⟩
  rcases Nat.eq_zero_or_pos n with rfl | hpos
  · rfl
  · exact absurd hzero (head?_toDigits (Nat.ne_of_gt hpos))

/-! ## Literals -/

def Stops (rest : List Char) : Prop := ∀ c ∈ rest.head?, c.isDigit = false

theorem takeWhile_append {digits rest : List Char} (h : ∀ c ∈ digits, c.isDigit = true)
    (hrest : Stops rest) : (digits ++ rest).takeWhile Char.isDigit = digits := by
  rw [List.takeWhile_append_of_pos h]
  cases rest with
  | nil => simp
  | cons c rest => simp [hrest c rfl]

theorem dropWhile_append {digits rest : List Char} (h : ∀ c ∈ digits, c.isDigit = true)
    (hrest : Stops rest) : (digits ++ rest).dropWhile Char.isDigit = rest := by
  rw [List.dropWhile_append_of_pos h]
  cases rest with
  | nil => simp
  | cons c rest => simp [hrest c rfl]

variable {negative : Bool} {whole places rest : List Char}

theorem Leading.accepted (h : Leading whole) :
    ¬(whole.isEmpty = true ∨ whole.head? = some '0' ∧ 1 < whole.length) := by
  rintro (hnil | ⟨hzero, hlong⟩)
  · exact h.ne_nil (List.isEmpty_iff.1 hnil)
  · exact absurd (h.zero hzero) (Nat.ne_of_gt hlong)

theorem Leading.ofUnsigned?_append (h : Leading whole) (hrest : Stops rest)
    (hpoint : rest.head? ≠ some '.') (negative : Bool) :
    ofUnsigned? negative (whole ++ rest) = exponent? negative whole [] rest := by
  unfold ofUnsigned?
  simp only [takeWhile_append h.isDigit hrest, dropWhile_append h.isDigit hrest, if_neg h.accepted]
  split
  · exact absurd rfl hpoint
  · rfl

theorem Leading.ofUnsigned?_point (h : Leading whole) (hplaces : places ≠ [])
    (hdigits : ∀ c ∈ places, c.isDigit = true) (hrest : Stops rest) (negative : Bool) :
    ofUnsigned? negative (whole ++ '.' :: (places ++ rest)) = exponent? negative whole places rest := by
  have hstop : Stops ('.' :: (places ++ rest)) := by
    rintro c ⟨⟩
    rfl
  have hsome : ¬places.isEmpty = true := fun hnil => hplaces (List.isEmpty_iff.1 hnil)
  unfold ofUnsigned?
  simp only [takeWhile_append h.isDigit hstop, dropWhile_append h.isDigit hstop, if_neg h.accepted,
    takeWhile_append hdigits hrest, dropWhile_append hdigits hrest, if_neg hsome]

theorem exponent?_nil : exponent? negative whole places [] =
    some ⟨negative, readDigits (whole ++ places), places.length, 0, places.isEmpty⟩ := rfl

theorem exponent?_power (lead : Int) :
    exponent? negative whole places ('e' :: (if lead < 0 then '-' else '+') :: Nat.toDigits 10 lead.natAbs) =
      some ⟨negative, readDigits (whole ++ places), places.length, lead, false⟩ := by
  have haccepted : ¬((Nat.toDigits 10 lead.natAbs).isEmpty = true ∨
      (!(Nat.toDigits 10 lead.natAbs).all Char.isDigit) = true) := by
    rintro (hnil | hother)
    · exact Nat.toDigits_ne_nil (List.isEmpty_iff.1 hnil)
    · rw [List.all_eq_true.2 fun c hc => isDigit_toDigits hc] at hother
      cases hother
  by_cases hneg : lead < 0
  · have hlead : -(lead.natAbs : Int) = lead := by omega
    rw [if_pos hneg, exponent?, if_pos (.inl rfl)]
    simp only [if_neg haccepted, if_true, readDigits_toDigits, hlead]
  · have hlead : (lead.natAbs : Int) = lead := by omega
    rw [if_neg hneg, exponent?, if_pos (.inl rfl)]
    simp only [if_neg haccepted, Bool.false_eq_true, if_false, readDigits_toDigits, hlead]

/-! ## Doubles -/

/-- The literal has a point or a power of ten, and it is read as the decimal is. -/
def Spells (l : NumberLiteral) (negative : Bool) (d : Decimal) : Prop :=
  l.negative = negative ∧ l.isWhole = false ∧
    (Decimal.mk l.digits (l.exponent - l.places)).toDouble? negative = d.toDouble? negative

theorem ofUnsigned?_scientific (d : Decimal) :
    ∃ l, ofUnsigned? negative (DecimalStyle.scientific (Nat.toDigits 10 d.digits)
        (d.exponent + (Nat.toDigits 10 d.digits).length - 1)) = some l ∧ l.Spells negative d := by
  generalize hlead : d.exponent + (Nat.toDigits 10 d.digits).length - 1 = lead
  have hdigits := leading_toDigits d.digits
  have hread := readDigits_toDigits d.digits
  have hpower : Stops ('e' :: (if lead < 0 then '-' else '+') :: Nat.toDigits 10 lead.natAbs) := by
    rintro c ⟨⟩
    rfl
  unfold DecimalStyle.scientific
  generalize Nat.toDigits 10 d.digits = digits at *
  match digits with
  | [] => exact absurd rfl hdigits.ne_nil
  -- A single digit has no point after it.
  | [c] =>
    simp only
    rw [hdigits.ofUnsigned?_append hpower (by simp), exponent?_power]
    refine ⟨_, rfl, rfl, rfl, ?_⟩
    have hexp : lead - 0 = d.exponent := by
      simp only [List.length_singleton] at hlead
      omega
    rw [List.append_nil, hread]
    exact congrArg (fun e => Decimal.toDouble? negative ⟨d.digits, e⟩) hexp
  -- The point stands behind the first digit.
  | c :: second :: rest =>
    have hfirst : Leading [c] := by
      refine ⟨List.cons_ne_nil _ _, fun a ha => ?_, fun _ => rfl⟩
      exact hdigits.isDigit a (List.mem_cons.2 (.inl (List.mem_singleton.1 ha)))
    have hrest : ∀ a ∈ second :: rest, a.isDigit = true :=
      fun a ha => hdigits.isDigit a (List.mem_cons_of_mem _ ha)
    have hpoint := hfirst.ofUnsigned?_point (List.cons_ne_nil _ _) hrest hpower negative
    rw [exponent?_power] at hpoint
    refine ⟨_, hpoint, rfl, rfl, ?_⟩
    have hexp : lead - ↑(second :: rest).length = d.exponent := by
      simp only [List.length_cons] at hlead ⊢
      omega
    rw [List.singleton_append, hread]
    exact congrArg (fun e => Decimal.toDouble? negative ⟨d.digits, e⟩) hexp

theorem stops_nil : Stops [] := by
  rintro c ⟨⟩

variable {digits : List Char}

theorem ofUnsigned?_below (h : Leading digits) (negative : Bool) (zeros : Nat) :
    ofUnsigned? negative ('0' :: '.' :: List.replicate zeros '0' ++ digits) =
      some ⟨negative, readDigits digits, zeros + digits.length, 0, false⟩ := by
  have hplaces : ∀ c ∈ List.replicate zeros '0' ++ digits, c.isDigit = true := by
    intro c hc
    rcases List.mem_append.1 hc with hc | hc
    · rw [(List.mem_replicate.1 hc).2]
      rfl
    · exact h.isDigit c hc
  have hsome : List.replicate zeros '0' ++ digits ≠ [] :=
    fun hnil => h.ne_nil (List.append_eq_nil_iff.1 hnil).2
  have hread : readDigits (['0'] ++ (List.replicate zeros '0' ++ digits)) = readDigits digits := by
    rw [← List.append_assoc]
    exact readDigits_zeros_append (zeros + 1) digits
  have hpoint := (leading_toDigits 0).ofUnsigned?_point hsome hplaces stops_nil negative
  rw [Nat.toDigits_zero, exponent?_nil, hread, List.isEmpty_eq_false_iff.2 hsome, List.length_append,
    List.length_replicate, List.append_nil] at hpoint
  exact hpoint

theorem ofUnsigned?_above (h : Leading digits) (negative : Bool) {zeros : Nat}
    (hzeros : digits.head? = some '0' → zeros = 0) :
    ofUnsigned? negative (digits ++ List.replicate zeros '0' ++ ['.', '0']) =
      some ⟨negative, readDigits digits * 10 ^ (zeros + 1), 1, 0, false⟩ := by
  have hhead : (digits ++ List.replicate zeros '0').head? = digits.head? := by
    obtain ⟨c, cs, rfl⟩ := List.exists_cons_of_ne_nil h.ne_nil
    rfl
  have hwhole : Leading (digits ++ List.replicate zeros '0') := by
    refine ⟨fun hnil => h.ne_nil (List.append_eq_nil_iff.1 hnil).1, fun c hc => ?_, fun hzero => ?_⟩
    · rcases List.mem_append.1 hc with hc | hc
      · exact h.isDigit c hc
      · rw [(List.mem_replicate.1 hc).2]
        rfl
    · rw [hhead] at hzero
      rw [hzeros hzero, List.replicate_zero, List.append_nil, h.zero hzero]
  have hread : readDigits (digits ++ List.replicate zeros '0' ++ ['0']) =
      readDigits digits * 10 ^ (zeros + 1) := by
    rw [List.append_assoc, ← List.replicate_succ', readDigits_append_zeros]
  have hpoint := hwhole.ofUnsigned?_point (List.cons_ne_nil '0' []) (by simp) stops_nil negative
  rw [exponent?_nil, hread] at hpoint
  exact hpoint

theorem ofUnsigned?_within (h : Leading digits) (negative : Bool) {whole : Nat} (hpos : 0 < whole)
    (hlt : whole < digits.length) :
    ofUnsigned? negative (digits.take whole ++ '.' :: digits.drop whole) =
      some ⟨negative, readDigits digits, digits.length - whole, 0, false⟩ := by
  have hhead : (digits.take whole).head? = digits.head? := by
    rw [List.head?_take, if_neg (Nat.ne_of_gt hpos)]
  have hlength : (digits.take whole).length = whole := List.length_take_of_le (Nat.le_of_lt hlt)
  have hwhole : Leading (digits.take whole) := by
    refine ⟨fun hnil => ?_, fun c hc => h.isDigit c (List.mem_of_mem_take hc), fun hzero => ?_⟩
    · rw [hnil, List.length_nil] at hlength
      omega
    · have hone := h.zero (hhead ▸ hzero)
      omega
  have hsome : digits.drop whole ≠ [] := fun hnil => by
    have hrest := List.length_drop (l := digits) (i := whole)
    rw [hnil, List.length_nil] at hrest
    omega
  have hpoint := hwhole.ofUnsigned?_point hsome (fun c hc => h.isDigit c (List.mem_of_mem_drop hc))
    stops_nil negative
  rw [exponent?_nil, List.take_append_drop, List.length_drop, List.isEmpty_eq_false_iff.2 hsome,
    List.append_nil] at hpoint
  exact hpoint

theorem ofUnsigned?_plain (d : Decimal) (hd : d.digits = 0 → d.exponent = 0) :
    ∃ l, ofUnsigned? negative (DecimalStyle.document.plain (Nat.toDigits 10 d.digits)
        (d.exponent + (Nat.toDigits 10 d.digits).length - 1)) = some l ∧ l.Spells negative d := by
  generalize hlead : d.exponent + (Nat.toDigits 10 d.digits).length - 1 = lead
  have hdigits := leading_toDigits d.digits
  have hread := readDigits_toDigits d.digits
  have hzero : (Nat.toDigits 10 d.digits).head? = some '0' →
      d.exponent = 0 ∧ (Nat.toDigits 10 d.digits).length = 1 := by
    intro hzero
    have hnone : d.digits = 0 := Decidable.byContradiction fun hne => head?_toDigits hne hzero
    exact ⟨hd hnone, hdigits.zero hzero⟩
  unfold DecimalStyle.plain
  generalize Nat.toDigits 10 d.digits = digits at *
  split
  · -- All digits stand behind the point.
    refine ⟨_, ofUnsigned?_below hdigits negative _, rfl, rfl, ?_⟩
    have hexp : (0 : Int) - ↑((-lead - 1).toNat + digits.length) = d.exponent := by omega
    simp only [hexp, hread]
  · simp only
    split
    · -- All digits stand before it, and zeros fill them up.
      refine ⟨_, ofUnsigned?_above hdigits negative fun hlead => ?_, rfl, rfl, ?_⟩
      · have := hzero hlead
        omega
      · rw [hread, Decimal.toDouble?_mul_pow]
        have hexp : (0 : Int) - (1 : Nat) + ↑(lead.toNat + 1 - digits.length + 1) = d.exponent := by omega
        exact congrArg (fun e => Decimal.toDouble? negative ⟨d.digits, e⟩) hexp
    · -- The point stands among the digits.
      refine ⟨_, ofUnsigned?_within hdigits negative (by omega) (by omega), rfl, rfl, ?_⟩
      have hexp : (0 : Int) - ↑(digits.length - (lead.toNat + 1)) = d.exponent := by omega
      simp only [hexp, hread]

theorem ofUnsigned?_magnitude (negative : Bool) (d : Decimal) (hd : d.digits = 0 → d.exponent = 0) :
    ∃ l, ofUnsigned? negative (DecimalStyle.document.magnitude d) = some l ∧ l.Spells negative d := by
  unfold DecimalStyle.magnitude
  simp only
  split
  · exact ofUnsigned?_plain d hd
  · exact ofUnsigned?_scientific d

theorem head?_of_ofUnsigned? {cs : List Char} {l : NumberLiteral}
    (h : ofUnsigned? negative cs = some l) : ∃ c rest, cs = c :: rest ∧ c.isDigit = true := by
  cases cs with
  | nil =>
    unfold ofUnsigned? at h
    simp at h
  | cons c rest =>
    refine ⟨c, rest, rfl, ?_⟩
    cases hdigit : c.isDigit with
    | true => rfl
    | false =>
      unfold ofUnsigned? at h
      simp [hdigit] at h

theorem ofChars?_unsigned {cs : List Char} {l : NumberLiteral} (h : ofUnsigned? false cs = some l) :
    ofChars? cs = some l := by
  obtain ⟨c, rest, rfl, hdigit⟩ := head?_of_ofUnsigned? h
  unfold ofChars?
  split
  · rename_i heq
    cases heq
    exact absurd hdigit (by decide)
  · exact h

theorem head?_of_ofChars? {cs : List Char} {l : NumberLiteral} (h : ofChars? cs = some l) :
    ∃ c rest, cs = c :: rest ∧ (c.isDigit = true ∨ c = '-') := by
  unfold ofChars? at h
  split at h
  · exact ⟨'-', _, rfl, .inr rfl⟩
  · obtain ⟨c, rest, hcs, hdigit⟩ := head?_of_ofUnsigned? h
    exact ⟨c, rest, hcs, .inl hdigit⟩

theorem ofChars?_integerText (i : Int) :
    ofChars? (integerText i) = some ⟨decide (i < 0), i.natAbs, 0, 0, true⟩ := by
  have hread (negative : Bool) : ofUnsigned? negative (Nat.toDigits 10 i.natAbs) =
      some ⟨negative, i.natAbs, 0, 0, true⟩ := by
    have happend := (leading_toDigits i.natAbs).ofUnsigned?_append stops_nil (by simp) negative
    rw [exponent?_nil, List.append_nil, readDigits_toDigits] at happend
    exact happend
  unfold integerText
  by_cases hneg : i < 0
  · rw [if_pos hneg, decide_eq_true hneg]
    exact hread true
  · rw [if_neg hneg, decide_eq_false hneg]
    exact ofChars?_unsigned (hread false)

theorem ofChars?_double {x : Double} (h : x.Valid) :
    ∃ l, ofChars? (DecimalStyle.document.write x) = some l ∧ l.number? = some (.double x) := by
  generalize hd : (if x.units = 0 then (⟨0, 0⟩ : Decimal) else Double.shortest x.units) = d
  have hread : d.toDouble? x.negative = some x := by
    -- Zero has no shortest decimal, and is written as `0`.
    by_cases hzero : x.units = 0
    · rw [← hd, if_pos hzero]
      obtain ⟨negative, units⟩ := x
      obtain rfl : units = 0 := hzero
      rfl
    · rw [← hd, if_neg hzero]
      exact h.toDouble?_shortest (Nat.pos_of_ne_zero hzero)
  have hdigits : d.digits = 0 → d.exponent = 0 := by
    intro hnone
    by_cases hzero : x.units = 0
    · rw [← hd, if_pos hzero]
    · rw [Decimal.toDouble?, if_pos (.inl hnone)] at hread
      exact absurd (congrArg Double.units (Option.some.inj hread)).symm hzero
  obtain ⟨l, hl, hnegative, hwhole, hspells⟩ := ofUnsigned?_magnitude x.negative d hdigits
  refine ⟨l, ?_, ?_⟩
  · have hsigned : (x.negative && (x.units != 0 || DecimalStyle.document.signedZero)) = x.negative := by
      simp [DecimalStyle.document]
    unfold DecimalStyle.write
    simp only [hsigned, hd]
    cases hneg : x.negative with
    | true =>
      rw [hneg] at hl
      exact hl
    | false =>
      rw [hneg] at hl
      exact ofChars?_unsigned hl
  · rw [number?, hwhole, Bool.false_and, if_neg (by simp), hnegative, hspells, hread]
    rfl

theorem ofChars?_write {n : Number} (h : n.Readable) :
    ∃ l, ofChars? n.write = some l ∧ l.number? = some n := by
  cases n with
  | integer i =>
    refine ⟨_, ofChars?_integerText i, ?_⟩
    have hsigned : (if decide (i < 0) = true then -(i.natAbs : Int) else i.natAbs) = i := by
      by_cases hneg : i < 0
      · rw [if_pos (decide_eq_true hneg)]
        omega
      · rw [if_neg (by simp [hneg])]
        omega
    have hzero : (decide (i < 0) && i.natAbs == 0) = false := by
      by_cases hneg : i < 0
      · have hne : i.natAbs ≠ 0 := by omega
        simp [hne]
      · simp [hneg]
    unfold number?
    simp only [hsigned, hzero, Bool.not_false, Bool.and_self, true_and]
    exact if_pos h
  | double x => exact ofChars?_double h

/-! ## Characters -/

theorem isNumberChar_of_isDigit {c : Char} (h : c.isDigit = true) : Scanner.isNumberChar c = true := by
  simp [Scanner.isNumberChar, h]

theorem isNumberChar_toDigits (n : Nat) : ∀ c ∈ Nat.toDigits 10 n, Scanner.isNumberChar c = true :=
  fun _ hc => isNumberChar_of_isDigit (isDigit_toDigits hc)

theorem isNumberChar_integerText (i : Int) : ∀ c ∈ integerText i, Scanner.isNumberChar c = true := by
  unfold integerText
  split
  · exact List.forall_mem_cons.2 ⟨rfl, isNumberChar_toDigits _⟩
  · exact isNumberChar_toDigits _

theorem isNumberChar_zeros (n : Nat) : ∀ c ∈ List.replicate n '0', Scanner.isNumberChar c = true := by
  intro c hc
  rw [(List.mem_replicate.1 hc).2]
  rfl

theorem isNumberChar_plain (style : DecimalStyle) {digits : List Char}
    (h : ∀ c ∈ digits, Scanner.isNumberChar c = true) (lead : Int) :
    ∀ c ∈ style.plain digits lead, Scanner.isNumberChar c = true := by
  have hpoint : ∀ c ∈ (if style.pointZero then ['.', '0'] else []), Scanner.isNumberChar c = true := by
    split
    · exact List.forall_mem_cons.2 ⟨rfl, List.forall_mem_singleton.2 rfl⟩
    · exact List.forall_mem_nil _
  unfold DecimalStyle.plain
  split
  · exact List.forall_mem_append.2 ⟨List.forall_mem_cons.2 ⟨rfl, List.forall_mem_cons.2
      ⟨rfl, isNumberChar_zeros _⟩⟩, h⟩
  · simp only
    split
    · exact List.forall_mem_append.2 ⟨List.forall_mem_append.2 ⟨h, isNumberChar_zeros _⟩, hpoint⟩
    · exact List.forall_mem_append.2 ⟨fun c hc => h c (List.mem_of_mem_take hc),
        List.forall_mem_cons.2 ⟨rfl, fun c hc => h c (List.mem_of_mem_drop hc)⟩⟩

theorem isNumberChar_scientific {digits : List Char} (h : ∀ c ∈ digits, Scanner.isNumberChar c = true)
    (lead : Int) : ∀ c ∈ DecimalStyle.scientific digits lead, Scanner.isNumberChar c = true := by
  have hpower : ∀ c ∈ 'e' :: (if lead < 0 then '-' else '+') :: Nat.toDigits 10 lead.natAbs,
      Scanner.isNumberChar c = true := by
    refine List.forall_mem_cons.2 ⟨rfl, List.forall_mem_cons.2 ⟨?_, isNumberChar_toDigits _⟩⟩
    split <;> rfl
  unfold DecimalStyle.scientific
  simp only
  refine List.forall_mem_append.2 ⟨?_, hpower⟩
  split
  · obtain ⟨hfirst, hrest⟩ := List.forall_mem_cons.1 h
    exact List.forall_mem_cons.2 ⟨hfirst, List.forall_mem_cons.2 ⟨rfl, hrest⟩⟩
  · exact h

theorem isNumberChar_double (style : DecimalStyle) (x : Double) :
    ∀ c ∈ style.write x, Scanner.isNumberChar c = true := by
  have hmagnitude (d : Decimal) : ∀ c ∈ style.magnitude d, Scanner.isNumberChar c = true := by
    unfold DecimalStyle.magnitude
    simp only
    split
    · exact isNumberChar_plain style (isNumberChar_toDigits _) _
    · exact isNumberChar_scientific (isNumberChar_toDigits _) _
  rw [DecimalStyle.write]
  split
  · exact List.forall_mem_cons.2 ⟨rfl, hmagnitude _⟩
  · exact hmagnitude _

theorem isNumberChar_write (n : Number) : ∀ c ∈ n.write, Scanner.isNumberChar c = true := by
  cases n with
  | integer i => exact isNumberChar_integerText i
  | double x => exact isNumberChar_double .document x

end Json.NumberLiteral

end MediaCache
