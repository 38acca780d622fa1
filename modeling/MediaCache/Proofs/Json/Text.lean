import MediaCache.Json.Printer
import MediaCache.Json.Written
import MediaCache.Proofs.Json.Numbers
import MediaCache.Proofs.Json.Parts

/-!
# Text that reads back

A printed value is scanned as its tokens, and its tokens are put together as the tree it is written as.
The layout puts only white space between tokens, so nothing of it is left.
-/

namespace MediaCache

namespace Json

/-! ## Strings -/

/-- A character stands for itself, or a letter or a number behind a backslash stands for it. -/
inductive Escaped (c : Char) : List Char → Prop
  | short {letter : Char} (hletter : letter ≠ 'u') (h : unescape? letter = some c) :
    Escaped c ['\\', letter]
  | code (h : c.toNat < 0x20) :
    Escaped c ['\\', 'u', '0', '0', hexDigit (c.toNat / 16), hexDigit (c.toNat % 16)]
  | plain (hquote : c ≠ '"') (hbackslash : c ≠ '\\') (h : ¬c.toNat < 0x20) : Escaped c [c]

theorem escaped_escape (c : Char) : Escaped c (escape c) := by
  unfold escape
  split
  case h_8 hquote hbackslash _ _ _ _ _ =>
    split
    · exact .code ‹_›
    · exact .plain hquote hbackslash ‹_›
  all_goals exact .short (by decide) rfl

theorem hexValue?_hexDigit : ∀ n < 16, hexValue? (hexDigit n) = some n := by decide

theorem pieces?_code {c : Char} (h : c.toNat < 0x20) (rest : List Char) :
    pieces? ('\\' :: 'u' :: '0' :: '0' :: hexDigit (c.toNat / 16) :: hexDigit (c.toNat % 16) :: rest) =
      (pieces? rest).map (.unit c.toNat :: ·) := by
  have hhigh := hexValue?_hexDigit (c.toNat / 16) (by omega)
  have hlow := hexValue?_hexDigit (c.toNat % 16) (by omega)
  have hzero : hexValue? '0' = some 0 := rfl
  have hcode : 4096 * 0 + 256 * 0 + 16 * (c.toNat / 16) + c.toNat % 16 = c.toNat := by omega
  simp only [pieces?, hzero, hhigh, hlow, Option.bind_eq_bind, Option.bind_some, hcode]
  cases pieces? rest <;> rfl

theorem pieces?_short {letter c : Char} (hletter : letter ≠ 'u') (h : unescape? letter = some c)
    (rest : List Char) : pieces? ('\\' :: letter :: rest) = (pieces? rest).map (.char c :: ·) := by
  rw [pieces?]
  · simp only [h, Option.bind_eq_bind, Option.bind_some]
    cases pieces? rest <;> rfl
  · intro a b d e tail heq
    exact fun hu => absurd heq hletter

theorem pieces?_plain {c : Char} (hbackslash : c ≠ '\\') (h : ¬c.toNat < 0x20) (rest : List Char) :
    pieces? (c :: rest) = (pieces? rest).map (.char c :: ·) := by
  rw [pieces?, if_neg (not_or.2 ⟨hbackslash, h⟩)]
  · exact fun _ _ _ _ _ heq => absurd heq hbackslash
  · exact fun _ _ heq => absurd heq hbackslash

/-- A code that is no half of a pair is a character, whatever follows it. -/
theorem join?_unit {code : Nat} (h : code < 0xD800) (rest : List Piece) :
    join? (.unit code :: rest) = (join? rest).map (Char.ofNat code :: ·) := by
  have hhigh : isHighSurrogate code = false := by simp [isHighSurrogate]; omega
  have hlow : isLowSurrogate code = false := by simp [isLowSurrogate]; omega
  cases rest with
  | nil => simp [join?, hhigh, hlow]
  | cons p rest =>
    cases p <;> simp [join?, hhigh, hlow]

theorem Escaped.exists_piece {c : Char} {text : List Char} (h : Escaped c text) :
    ∃ p, (∀ rest, pieces? (text ++ rest) = (pieces? rest).map (p :: ·)) ∧
      ∀ rest, join? (p :: rest) = (join? rest).map (c :: ·) := by
  cases h with
  | short hletter h => exact ⟨.char c, pieces?_short hletter h, fun rest => by rw [join?]⟩
  | code h =>
    refine ⟨.unit c.toNat, pieces?_code h, fun rest => ?_⟩
    rw [join?_unit (Nat.lt_trans h (by decide)), Char.ofNat_toNat]
  | plain hquote hbackslash h => exact ⟨.char c, pieces?_plain hbackslash h, fun rest => by rw [join?]⟩

theorem pieces?_escape (cs : List Char) :
    ∃ body, pieces? (cs.flatMap escape) = some body ∧ join? body = some cs := by
  induction cs with
  | nil => exact ⟨[], rfl, rfl⟩
  | cons c cs ih =>
    obtain ⟨body, hbody, hjoin⟩ := ih
    obtain ⟨p, hp, hc⟩ := (escaped_escape c).exists_piece
    refine ⟨p :: body, ?_, ?_⟩
    · rw [List.flatMap_cons, hp, hbody, Option.map_some]
    · rw [hc, hjoin, Option.map_some]

/-! ## Scanning -/

namespace Scanner

variable {tokens : List Token}

theorem hexDigit_plain : ∀ n < 16, hexDigit n ≠ '"' ∧ hexDigit n ≠ '\\' := by decide

theorem step_string {c : Char} (hquote : c ≠ '"') (hbackslash : c ≠ '\\') (seen : List Char) :
    step ⟨tokens, .string seen⟩ c = some ⟨tokens, .string (c :: seen)⟩ := by
  simp [step, hquote, hbackslash]

theorem step_escape (c : Char) (seen : List Char) :
    step ⟨tokens, .escape seen⟩ c = some ⟨tokens, .string (c :: seen)⟩ := rfl

theorem step_backslash (seen : List Char) :
    step ⟨tokens, .string seen⟩ '\\' = some ⟨tokens, .escape ('\\' :: seen)⟩ := rfl

theorem foldlM_escape (c : Char) (seen : List Char) :
    (escape c).foldlM step ⟨tokens, .string seen⟩ =
      some ⟨tokens, .string ((escape c).reverse ++ seen)⟩ := by
  have hescaped := escaped_escape c
  generalize escape c = text at *
  cases hescaped with
  | short hletter h => rfl
  | code h =>
    have hhigh := hexDigit_plain (c.toNat / 16) (by omega)
    have hlow := hexDigit_plain (c.toNat % 16) (by omega)
    have hzero : '0' ≠ '"' ∧ '0' ≠ '\\' := by decide
    simp only [List.foldlM_cons, List.foldlM_nil, step_backslash, step_escape, Option.bind_eq_bind,
      Option.bind_some, step_string hzero.1 hzero.2, step_string hhigh.1 hhigh.2,
      step_string hlow.1 hlow.2]
    rfl
  | plain hquote hbackslash h =>
    simp only [List.foldlM_cons, List.foldlM_nil, step_string hquote hbackslash]
    rfl

theorem foldlM_escaped (cs seen : List Char) :
    (cs.flatMap escape).foldlM step ⟨tokens, .string seen⟩ =
      some ⟨tokens, .string ((cs.flatMap escape).reverse ++ seen)⟩ := by
  induction cs generalizing seen with
  | nil => rfl
  | cons c cs ih =>
    rw [List.flatMap_cons, List.foldlM_append, foldlM_escape, Option.bind_eq_bind, Option.bind_some, ih,
      List.reverse_append, List.append_assoc]

theorem foldlM_quote (s : String) :
    (quote s).foldlM step ⟨tokens, .nothing⟩ = some ⟨.string (some s) :: tokens, .nothing⟩ := by
  obtain ⟨body, hbody, hjoin⟩ := pieces?_escape s.toList
  have hend : step ⟨tokens, .string ((s.toList.flatMap escape).reverse ++ [])⟩ '"' =
      some ⟨.string (some s) :: tokens, .nothing⟩ := by
    rw [List.append_nil, step]
    simp [hbody, hjoin, push]
  rw [quote, List.cons_append, List.foldlM_cons]
  change (s.toList.flatMap escape ++ ['"']).foldlM step ⟨tokens, .string []⟩ = _
  rw [List.foldlM_append, foldlM_escaped, Option.bind_eq_bind, Option.bind_some, List.foldlM_cons, hend]
  rfl

/-! ## Between tokens -/

def Ends (c : Char) : Prop := isNumberChar c = false ∧ c.isLower = false

/-- All tokens up to here are read, at the latest when something else begins. -/
structure Settles (s : Scanner) (tokens : List Token) : Prop where
  flush : s.flush? = some ⟨tokens, .nothing⟩
  step : ∀ c, Ends c → s.step c = begin? ⟨tokens, .nothing⟩ c

theorem settles_nothing (tokens : List Token) : Settles ⟨tokens, .nothing⟩ tokens := ⟨rfl, fun _ _ => rfl⟩

theorem ends_of_isSpace {c : Char} (h : isSpace c = true) : Ends c := by
  simp only [isSpace, Bool.or_eq_true, beq_iff_eq] at h
  rcases h with ((rfl | rfl) | rfl) | rfl <;> exact ⟨rfl, rfl⟩

theorem begin?_space {c : Char} (h : isSpace c = true) :
    begin? ⟨tokens, .nothing⟩ c = some ⟨tokens, .nothing⟩ := by
  simp only [isSpace, Bool.or_eq_true, beq_iff_eq] at h
  rcases h with ((rfl | rfl) | rfl) | rfl <;> rfl

theorem foldlM_spaces {spaces : List Char} (h : ∀ c ∈ spaces, isSpace c = true) :
    spaces.foldlM step ⟨tokens, .nothing⟩ = some ⟨tokens, .nothing⟩ := by
  induction spaces with
  | nil => rfl
  | cons c rest ih =>
    obtain ⟨hc, hrest⟩ := List.forall_mem_cons.1 h
    rw [List.foldlM_cons, step, begin?_space hc]
    exact ih hrest

def Reads (cs : List Char) (s : Scanner) (tokens : List Token) : Prop :=
  ∃ t, cs.foldlM step s = some t ∧ t.Settles tokens

theorem reads_of_foldlM {cs : List Char} {s : Scanner} (h : cs.foldlM step s = some ⟨tokens, .nothing⟩) :
    Reads cs s tokens :=
  ⟨_, h, settles_nothing tokens⟩

theorem Reads.after {cs ds : List Char} {s t : Scanner} (h : cs.foldlM step s = some t)
    (h' : Reads ds t tokens) : Reads (cs ++ ds) s tokens := by
  obtain ⟨u, hu, hsettles⟩ := h'
  refine ⟨u, ?_, hsettles⟩
  rw [List.foldlM_append, h]
  exact hu

theorem Reads.bind {cs ds : List Char} {s : Scanner} {next : List Token} (h : Reads cs s tokens)
    (h' : ∀ t, t.Settles tokens → Reads ds t next) : Reads (cs ++ ds) s next := by
  obtain ⟨t, ht, hsettles⟩ := h
  exact Reads.after ht (h' t hsettles)

theorem Settles.spaces {s : Scanner} (h : s.Settles tokens) {spaces : List Char}
    (hspaces : ∀ c ∈ spaces, isSpace c = true) : Reads spaces s tokens := by
  cases spaces with
  | nil => exact ⟨s, rfl, h⟩
  | cons c rest =>
    obtain ⟨hc, hrest⟩ := List.forall_mem_cons.1 hspaces
    refine ⟨⟨tokens, .nothing⟩, ?_, settles_nothing tokens⟩
    rw [List.foldlM_cons, h.step c (ends_of_isSpace hc), begin?_space hc]
    exact foldlM_spaces hrest

theorem Settles.mark {s : Scanner} (h : s.Settles tokens) {c : Char} (hc : Ends c) {token : Token}
    (hbegin : begin? ⟨tokens, .nothing⟩ c = some ⟨token :: tokens, .nothing⟩) {spaces : List Char}
    (hspaces : ∀ c ∈ spaces, isSpace c = true) :
    (c :: spaces).foldlM Scanner.step s = some ⟨token :: tokens, .nothing⟩ := by
  rw [List.foldlM_cons, h.step c hc, hbegin]
  exact foldlM_spaces hspaces

/-! ## Words and numbers -/

theorem step_number {c : Char} (h : isNumberChar c = true) (seen : List Char) :
    step ⟨tokens, .number seen⟩ c = some ⟨tokens, .number (c :: seen)⟩ := by
  simp [step, h]

theorem foldlM_numberChars {cs : List Char} (h : ∀ c ∈ cs, isNumberChar c = true) (seen : List Char) :
    cs.foldlM step ⟨tokens, .number seen⟩ = some ⟨tokens, .number (cs.reverse ++ seen)⟩ := by
  induction cs generalizing seen with
  | nil => rfl
  | cons c cs ih =>
    obtain ⟨hc, hcs⟩ := List.forall_mem_cons.1 h
    rw [List.foldlM_cons, step_number hc, Option.bind_eq_bind, Option.bind_some, ih hcs,
      List.reverse_cons, List.append_assoc, List.singleton_append]

theorem begin?_number {c : Char} (h : c.isDigit = true ∨ c = '-') :
    begin? ⟨tokens, .nothing⟩ c = some ⟨tokens, .number [c]⟩ := by
  rcases h with hdigit | rfl
  · have hspace : isSpace c = false := by
      cases hspace : isSpace c with
      | false => rfl
      | true =>
        have hnumber := (ends_of_isSpace hspace).1
        rw [NumberLiteral.isNumberChar_of_isDigit hdigit] at hnumber
        cases hnumber
    unfold begin?
    split
    case h_8 => simp [hspace, hdigit]
    all_goals exact absurd hdigit (by decide)
  · rfl

theorem settles_number {seen : List Char} {l : NumberLiteral}
    (h : NumberLiteral.ofChars? seen.reverse = some l) :
    Settles ⟨tokens, .number seen⟩ (.number l :: tokens) := by
  have hflush : flush? ⟨tokens, .number seen⟩ = some ⟨.number l :: tokens, .nothing⟩ := by
    simp only [flush?, h]
    rfl
  refine ⟨hflush, fun c hc => ?_⟩
  simp [step, hc.1, hflush]

theorem settles_word {seen : List Char} {t : Token} (h : wordToken? seen.reverse = some t) :
    Settles ⟨tokens, .word seen⟩ (t :: tokens) := by
  have hflush : flush? ⟨tokens, .word seen⟩ = some ⟨t :: tokens, .nothing⟩ := by
    simp only [flush?, h]
    rfl
  refine ⟨hflush, fun c hc => ?_⟩
  simp [step, hc.2, hflush]

theorem reads_number {cs : List Char} (h : ∀ c ∈ cs, isNumberChar c = true) {l : NumberLiteral}
    (hl : NumberLiteral.ofChars? cs = some l) :
    Reads cs ⟨tokens, .nothing⟩ (.number l :: tokens) := by
  obtain ⟨c, rest, rfl, hfirst⟩ := NumberLiteral.head?_of_ofChars? hl
  refine ⟨⟨tokens, .number (rest.reverse ++ [c])⟩, ?_, settles_number ?_⟩
  · rw [List.foldlM_cons, step, begin?_number hfirst]
    exact foldlM_numberChars (List.forall_mem_cons.1 h).2 [c]
  · rw [List.reverse_append, List.reverse_reverse, List.reverse_singleton, List.singleton_append]
    exact hl

end Scanner

end Json

/-! ## Values -/

def Number.literal (n : Number) : Json.NumberLiteral :=
  (Json.NumberLiteral.ofChars? n.write).getD ⟨false, 0, 0, 0, true⟩

theorem Number.Readable.literal {n : Number} (h : n.Readable) :
    Json.NumberLiteral.ofChars? n.write = some n.literal ∧ n.literal.number? = some n := by
  obtain ⟨l, hl, hnumber⟩ := Json.NumberLiteral.ofChars?_write h
  rw [Number.literal, hl]
  exact ⟨rfl, hnumber⟩

namespace Json

def Legible (v : Json) : Prop := ∀ n, number n ∈ v.parts → n.Readable

theorem legible_array {items : List Json} : (array items).Legible ↔ ∀ v ∈ items, v.Legible :=
  forall_number_array

theorem legible_object {fields : Fields} : (object fields).Legible ↔ ∀ e ∈ fields, e.2.Legible :=
  forall_number_object

theorem legible_of_isScalar {v : Json} (hscalar : v.isScalar = true) (h : ∀ n, v = number n → n.Readable) :
    v.Legible := by
  intro n hn
  rw [parts_of_isScalar hscalar, List.mem_singleton] at hn
  exact h n hn.symm

theorem legible_number {n : Number} : (number n).Legible ↔ n.Readable := by
  refine ⟨fun h => h n ?_, fun h => legible_of_isScalar rfl fun m hm => ?_⟩
  · rw [parts_of_isScalar rfl, List.mem_singleton]
  · cases hm
    exact h

mutual

def tokens : Json → List Token
  | null => [.null]
  | bool b => [.bool b]
  | number n => [.number n.literal]
  | string s => [.string (some s)]
  | array [] => [.beginArray, .endArray]
  | array (v :: rest) => .beginArray :: tokens v ++ tokensOfItems rest ++ [.endArray]
  | object [] => [.beginObject, .endObject]
  | object ((key, v) :: rest) =>
    .beginObject :: .string (some key) :: .colon :: tokens v ++ tokensOfFields rest ++ [.endObject]

def tokensOfItems : List Json → List Token
  | [] => []
  | v :: rest => .comma :: tokens v ++ tokensOfItems rest

def tokensOfFields : List (String × Json) → List Token
  | [] => []
  | (key, v) :: rest => .comma :: .string (some key) :: .colon :: tokens v ++ tokensOfFields rest

end

structure Layout.Spaced (layout : Layout) : Prop where
  newline : ∀ depth, ∀ c ∈ layout.newline depth, Scanner.isSpace c = true
  colon : ∃ spaces, layout.colon = ':' :: spaces ∧ ∀ c ∈ spaces, Scanner.isSpace c = true

theorem Layout.spaced_pretty : Layout.pretty.Spaced := by
  refine ⟨fun depth => List.forall_mem_cons.2 ⟨rfl, fun c hc => ?_⟩, [' '], rfl,
    List.forall_mem_singleton.2 rfl⟩
  rw [(List.mem_replicate.1 hc).2]
  rfl

namespace Scanner

variable {layout : Layout} {seen : List Token}

theorem foldlM_colon (hlayout : layout.Spaced) :
    layout.colon.foldlM step ⟨seen, .nothing⟩ = some ⟨.colon :: seen, .nothing⟩ := by
  obtain ⟨spaces, hcolon, hspaces⟩ := hlayout.colon
  rw [hcolon]
  exact (settles_nothing seen).mark ⟨rfl, rfl⟩ rfl hspaces

mutual

theorem reads_write (hlayout : layout.Spaced) : ∀ (v : Json) (depth : Nat) (seen : List Token),
    v.Legible → Reads (write layout depth v) ⟨seen, .nothing⟩ (v.tokens.reverse ++ seen)
  | .null, _, seen, _ => ⟨⟨seen, .word _⟩, rfl, settles_word rfl⟩
  | .bool true, _, seen, _ => ⟨⟨seen, .word _⟩, rfl, settles_word rfl⟩
  | .bool false, _, seen, _ => ⟨⟨seen, .word _⟩, rfl, settles_word rfl⟩
  | .number n, depth, seen, h => by
    rw [write, Json.tokens]
    exact reads_number (NumberLiteral.isNumberChar_write n) (legible_number.1 h).literal.1
  | .string s, depth, seen, _ => by
    rw [write, Json.tokens]
    exact reads_of_foldlM (foldlM_quote s)
  | .array [], depth, seen, _ => by
    rw [write, Json.tokens]
    exact reads_of_foldlM rfl
  | .array (v :: rest), depth, seen, h => by
    obtain ⟨hv, hrest⟩ := List.forall_mem_cons.1 (legible_array.1 h)
    have hread : (Json.tokens (.array (v :: rest))).reverse ++ seen =
        .endArray :: ((tokensOfItems rest).reverse ++ (v.tokens.reverse ++ .beginArray :: seen)) := by
      simp [Json.tokens]
    rw [write, hread, List.append_assoc, List.append_assoc, List.append_assoc]
    -- The bracket, the first item, the other items, and the closing bracket on a line of its own.
    refine Reads.after ((settles_nothing seen).mark ⟨rfl, rfl⟩ rfl (hlayout.newline _)) ?_
    refine (reads_write hlayout v _ _ hv).bind fun s hs => ?_
    refine (reads_writeItems hlayout rest _ hs hrest).bind fun s hs => ?_
    refine (hs.spaces (hlayout.newline depth)).bind fun s hs => ?_
    exact reads_of_foldlM (hs.mark ⟨rfl, rfl⟩ rfl (List.forall_mem_nil _))
  | .object [], depth, seen, _ => by
    rw [write, Json.tokens]
    exact reads_of_foldlM rfl
  | .object ((key, v) :: rest), depth, seen, h => by
    obtain ⟨hv, hrest⟩ := List.forall_mem_cons.1 (legible_object.1 h)
    have hread : (Json.tokens (.object ((key, v) :: rest))).reverse ++ seen =
        .endObject :: ((tokensOfFields rest).reverse ++
          (v.tokens.reverse ++ .colon :: .string (some key) :: .beginObject :: seen)) := by
      simp [Json.tokens]
    rw [write, hread, List.append_assoc, List.append_assoc, List.append_assoc, List.append_assoc,
      List.append_assoc]
    -- As for lists, with a key and a colon before each value.
    refine Reads.after ((settles_nothing seen).mark ⟨rfl, rfl⟩ rfl (hlayout.newline _)) ?_
    refine Reads.after (foldlM_quote key) (Reads.after (foldlM_colon hlayout) ?_)
    refine (reads_write hlayout v _ _ hv).bind fun s hs => ?_
    refine (reads_writeFields hlayout rest _ hs hrest).bind fun s hs => ?_
    refine (hs.spaces (hlayout.newline depth)).bind fun s hs => ?_
    exact reads_of_foldlM (hs.mark ⟨rfl, rfl⟩ rfl (List.forall_mem_nil _))

theorem reads_writeItems (hlayout : layout.Spaced) : ∀ (items : List Json) (depth : Nat)
    {seen : List Token} {s : Scanner}, s.Settles seen → (∀ v ∈ items, v.Legible) →
      Reads (writeItems layout depth items) s ((tokensOfItems items).reverse ++ seen)
  | [], _, _, s, hs, _ => ⟨s, rfl, hs⟩
  | v :: rest, depth, seen, s, hs, h => by
    obtain ⟨hv, hrest⟩ := List.forall_mem_cons.1 h
    have hread : (tokensOfItems (v :: rest)).reverse ++ seen =
        (tokensOfItems rest).reverse ++ (v.tokens.reverse ++ .comma :: seen) := by
      simp [tokensOfItems]
    rw [writeItems, hread, List.append_assoc]
    refine Reads.after (hs.mark ⟨rfl, rfl⟩ rfl (hlayout.newline depth)) ?_
    refine (reads_write hlayout v _ _ hv).bind fun s hs => ?_
    exact reads_writeItems hlayout rest _ hs hrest

theorem reads_writeFields (hlayout : layout.Spaced) : ∀ (fields : Fields) (depth : Nat)
    {seen : List Token} {s : Scanner}, s.Settles seen → (∀ e ∈ fields, e.2.Legible) →
      Reads (writeFields layout depth fields) s ((tokensOfFields fields).reverse ++ seen)
  | [], _, _, s, hs, _ => ⟨s, rfl, hs⟩
  | (key, v) :: rest, depth, seen, s, hs, h => by
    obtain ⟨hv, hrest⟩ := List.forall_mem_cons.1 h
    have hread : (tokensOfFields ((key, v) :: rest)).reverse ++ seen =
        (tokensOfFields rest).reverse ++
          (v.tokens.reverse ++ .colon :: .string (some key) :: .comma :: seen) := by
      simp [tokensOfFields]
    rw [writeFields, hread, List.append_assoc, List.append_assoc, List.append_assoc]
    refine Reads.after (hs.mark ⟨rfl, rfl⟩ rfl (hlayout.newline depth)) ?_
    refine Reads.after (foldlM_quote key) (Reads.after (foldlM_colon hlayout) ?_)
    refine (reads_write hlayout v _ _ hv).bind fun s hs => ?_
    exact reads_writeFields hlayout rest _ hs hrest

end

end Scanner

theorem tokens?_write {layout : Layout} (hlayout : layout.Spaced) {v : Json} (h : v.Legible)
    {spaces : List Char} (hspaces : ∀ c ∈ spaces, Scanner.isSpace c = true) :
    tokens? (write layout 0 v ++ spaces) = some v.tokens := by
  have hread := (Scanner.reads_write hlayout v 0 [] h).bind fun s hs => hs.spaces hspaces
  obtain ⟨s, hs, hsettles⟩ := hread
  rw [tokens?, Scanner.start, hs, Option.bind_some, hsettles.flush, Option.map_some, List.append_nil,
    List.reverse_reverse]

end Json

/-! ## Trees -/

namespace Written

namespace Progress

theorem foldlM_valueOrEnd (v : Json) (frames : List Frame) :
    v.tokens.foldlM step ⟨frames, .valueOrEnd⟩ = v.tokens.foldlM step ⟨frames, .value⟩ := by
  cases v with
  | array items => cases items <;> rfl
  | object fields => cases fields <;> rfl
  | _ => rfl

mutual

theorem foldlM_tokens : ∀ (v : Json) (frames : List Frame), v.Legible →
    v.tokens.foldlM step ⟨frames, .value⟩ = some (complete (ofJson v) frames)
  | .null, _, _ => rfl
  | .bool _, _, _ => rfl
  | .number n, frames, h => by
    rw [Json.tokens, ofJson, ← (Json.legible_number.1 h).literal.2]
    rfl
  | .string _, _, _ => rfl
  | .array [], _, _ => rfl
  | .array (v :: rest), frames, h => by
    obtain ⟨hv, hrest⟩ := List.forall_mem_cons.1 (Json.legible_array.1 h)
    have hopen : step ⟨frames, .value⟩ .beginArray = some ⟨.array [] :: frames, .valueOrEnd⟩ := rfl
    have hclose : step ⟨.array ((ofItems rest).reverse ++ [ofJson v]) :: frames, .separatorOrEnd⟩ .endArray =
        some (complete (ofJson (.array (v :: rest))) frames) := by
      simp [step, ofJson, ofItems]
    -- The first item is read under the opened list, the others behind it.
    rw [Json.tokens, List.cons_append, List.cons_append, List.foldlM_cons, hopen, Option.bind_eq_bind,
      Option.bind_some, List.append_assoc, List.foldlM_append, foldlM_valueOrEnd, foldlM_tokens v _ hv,
      Option.bind_eq_bind, Option.bind_some, List.foldlM_append, complete,
      foldlM_tokensOfItems rest _ _ hrest, Option.bind_eq_bind, Option.bind_some, List.foldlM_cons, hclose]
    rfl
  | .object [], _, _ => rfl
  | .object ((key, v) :: rest), frames, h => by
    obtain ⟨hv, hrest⟩ := List.forall_mem_cons.1 (Json.legible_object.1 h)
    have hopen : (Json.Token.beginObject :: .string (some key) :: [.colon]).foldlM step ⟨frames, .value⟩ =
        some ⟨.object [] (some key) :: frames, .value⟩ := rfl
    have hclose : step ⟨.object ((ofFields rest).reverse ++ [(some key, ofJson v)]) none :: frames,
        .separatorOrEnd⟩ .endObject = some (complete (ofJson (.object ((key, v) :: rest))) frames) := by
      simp [step, ofJson, ofFields]
    have hsplit : Json.tokens (.object ((key, v) :: rest)) =
        (.beginObject :: .string (some key) :: [.colon]) ++
          (v.tokens ++ (Json.tokensOfFields rest ++ [.endObject])) := by
      simp [Json.tokens]
    rw [hsplit, List.foldlM_append, hopen, Option.bind_eq_bind, Option.bind_some, List.foldlM_append,
      foldlM_tokens v _ hv, Option.bind_eq_bind, Option.bind_some, List.foldlM_append, complete,
      foldlM_tokensOfFields rest _ _ hrest, Option.bind_eq_bind, Option.bind_some, List.foldlM_cons, hclose]
    rfl

theorem foldlM_tokensOfItems : ∀ (items : List Json) (read : List Written) (frames : List Frame),
    (∀ v ∈ items, v.Legible) →
      (Json.tokensOfItems items).foldlM step ⟨.array read :: frames, .separatorOrEnd⟩ =
        some ⟨.array ((ofItems items).reverse ++ read) :: frames, .separatorOrEnd⟩
  | [], _, _, _ => rfl
  | v :: rest, read, frames, h => by
    obtain ⟨hv, hrest⟩ := List.forall_mem_cons.1 h
    have hcomma : step ⟨.array read :: frames, .separatorOrEnd⟩ .comma =
        some ⟨.array read :: frames, .value⟩ := rfl
    rw [Json.tokensOfItems, List.cons_append, List.foldlM_cons, hcomma, Option.bind_eq_bind,
      Option.bind_some, List.foldlM_append, foldlM_tokens v _ hv, Option.bind_eq_bind, Option.bind_some,
      complete, foldlM_tokensOfItems rest _ _ hrest, ofItems, List.reverse_cons, List.append_assoc]
    rfl

theorem foldlM_tokensOfFields : ∀ (fields : Json.Fields) (read : List (Option String × Written))
    (frames : List Frame), (∀ e ∈ fields, e.2.Legible) →
      (Json.tokensOfFields fields).foldlM step ⟨.object read none :: frames, .separatorOrEnd⟩ =
        some ⟨.object ((ofFields fields).reverse ++ read) none :: frames, .separatorOrEnd⟩
  | [], _, _, _ => rfl
  | (key, v) :: rest, read, frames, h => by
    obtain ⟨hv, hrest⟩ := List.forall_mem_cons.1 h
    have hcomma : (Json.Token.comma :: .string (some key) :: [.colon]).foldlM step
        ⟨.object read none :: frames, .separatorOrEnd⟩ =
          some ⟨.object read (some key) :: frames, .value⟩ := rfl
    have hsplit : Json.tokensOfFields ((key, v) :: rest) =
        (.comma :: .string (some key) :: [.colon]) ++ (v.tokens ++ Json.tokensOfFields rest) := by
      simp [Json.tokensOfFields]
    rw [hsplit, List.foldlM_append, hcomma, Option.bind_eq_bind, Option.bind_some, List.foldlM_append,
      foldlM_tokens v _ hv, Option.bind_eq_bind, Option.bind_some, complete,
      foldlM_tokensOfFields rest _ _ hrest, ofFields, List.reverse_cons, List.append_assoc]
    rfl

end

end Progress

theorem ofTokens?_tokens {v : Json} (h : v.Legible) : ofTokens? v.tokens = some (ofJson v) := by
  rw [ofTokens?, Progress.foldlM_tokens v [] h]
  rfl

theorem parse?_pretty {v : Json} (h : v.Legible) {spaces : List Char}
    (hspaces : ∀ c ∈ spaces, Json.Scanner.isSpace c = true) :
    parse? (v.pretty ++ String.ofList spaces) = some (ofJson v) := by
  rw [parse?, String.toList_append, Json.pretty, String.toList_ofList, String.toList_ofList,
    Json.tokens?_write Json.Layout.spaced_pretty h hspaces, Option.bind_some, ofTokens?_tokens h]

end Written

end MediaCache
