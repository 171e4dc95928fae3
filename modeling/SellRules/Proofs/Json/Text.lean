import SellRules.Json.Reader
import SellRules.Json.Writer

/-!
# Written texts read back

A text is written in ASCII: characters beyond it as numbered escapes, those beyond the basic plane
as two halves. `Json.exists_readAs_writeCode` reads one character, and `Json.joinPairs_halves` puts
the halves together again.
-/

set_option autoImplicit false

namespace SellRules.Json

open Value (hexDigits)

/-! ## Numbered escapes -/

theorem hexValue?_digitChar : ∀ n < 16, hexValue? n.digitChar = some n := by decide

theorem hexDigits_succ {width : Nat} (hwidth : 0 < width) (code : Nat) :
    hexDigits (width + 1) code = hexDigits width (code / 16) ++ [(code % 16).digitChar] := by
  obtain ⟨width, rfl⟩ := Nat.exists_eq_add_one_of_ne_zero (Nat.pos_iff_ne_zero.1 hwidth)
  simp only [hexDigits]
  rw [Nat.toDigits_eq_if (n := code) (by decide)]
  split
  next h =>
    have hzero : code / 16 = 0 := by omega
    rw [hzero, Nat.mod_eq_of_lt h]
    show List.replicate (width + 1) '0' ++ _ = List.replicate width '0' ++ ['0'] ++ _
    rw [List.replicate_succ']
  next h => simp [List.append_assoc]

theorem hexDigits_one {code : Nat} (h : code < 16) : hexDigits 1 code = [code.digitChar] := by
  simp [hexDigits, Nat.toDigits_of_lt_base h]

theorem hexDigits_four {code : Nat} (h : code < 0x10000) :
    hexDigits 4 code = [(code / 16 / 16 / 16).digitChar, (code / 16 / 16 % 16).digitChar,
      (code / 16 % 16).digitChar, (code % 16).digitChar] := by
  rw [hexDigits_succ (by decide), hexDigits_succ (by decide), hexDigits_succ (by decide),
    hexDigits_one (by omega)]
  rfl

/-- A numbered escape is read if something follows it. -/
theorem readPieces_unitEscape (start : List Char) {unit : Nat} (h : unit < 0x10000)
    {rest : List Char} (hrest : rest ≠ []) :
    readPieces headCode start (unitEscape unit ++ rest) =
      push (.numbered unit) (readPieces headCode start rest) := by
  obtain ⟨next, rest, rfl⟩ := List.exists_cons_of_ne_nil hrest
  have hcode : hexCode? (unit / 16 / 16 / 16).digitChar (unit / 16 / 16 % 16).digitChar
      (unit / 16 % 16).digitChar (unit % 16).digitChar = some unit := by
    simp only [hexCode?, hexValue?_digitChar _ (show unit / 16 / 16 / 16 < 16 by omega),
      hexValue?_digitChar _ (Nat.mod_lt _ (show 0 < 16 by decide))]
    show some _ = some _
    congr 1
    omega
  rw [unitEscape, hexDigits_four h]
  simp [readPieces, hcode]

/-! ## Characters -/

theorem readPieces_quote (start rest : List Char) :
    readPieces headCode start ('\x22' :: rest) = .ok ([], rest) := by
  rw [readPieces.eq_def]
  rfl

/-- A character that needs no escape stands for itself. -/
theorem readPieces_plain (start : List Char) {code : Nat} (hlow : 0x20 ≤ code) (hhigh : code ≤ 0x7E)
    (hquote : code ≠ 0x22) (hslash : code ≠ 0x5C) (rest : List Char) :
    readPieces headCode start (Char.ofNat code :: rest) =
      push (.plain code) (readPieces headCode start rest) := by
  have hnat : (Char.ofNat code).toNat = code := by
    have hvalid : code.isValidChar := .inl (by omega)
    rw [Char.ofNat, dif_pos hvalid]
    rfl
  have hquote' : Char.ofNat code ≠ '\x22' := fun h => hquote (by rw [← hnat, h]; rfl)
  have hslash' : Char.ofNat code ≠ '\x5c' := fun h => hslash (by rw [← hnat, h]; rfl)
  have hcontrol : ¬ (Char.ofNat code).toNat < 0x20 := by omega
  rw [readPieces.eq_def]
  simp only [if_neg hquote', if_neg hslash', if_neg hcontrol, headCode]
  rw [hnat]

/-! ## Pairs -/

theorem joinPairs_plain (code : Nat) (pieces : List Piece) :
    joinPairs (.plain code :: pieces) = code :: joinPairs pieces := rfl

theorem joinPairs_numbered {code : Nat} (h : isHighSurrogate code = false) (pieces : List Piece) :
    joinPairs (.numbered code :: pieces) = code :: joinPairs pieces := by
  cases pieces with
  | nil => rfl
  | cons piece rest => cases piece <;> simp [joinPairs, h]

/-- The halves of a character beyond the basic plane are put together. -/
theorem joinPairs_halves {code : Nat} (hlow : 0x10000 ≤ code) (hhigh : code < 0x110000)
    (pieces : List Piece) :
    joinPairs (.numbered (0xD800 + (code - 0x10000) / 0x400) ::
      .numbered (0xDC00 + (code - 0x10000) % 0x400) :: pieces) = code :: joinPairs pieces := by
  have hfirst : isHighSurrogate (0xD800 + (code - 0x10000) / 0x400) = true := by
    simp only [isHighSurrogate, Bool.and_eq_true, decide_eq_true_eq]
    omega
  have hsecond : isLowSurrogate (0xDC00 + (code - 0x10000) % 0x400) = true := by
    simp only [isLowSurrogate, Bool.and_eq_true, decide_eq_true_eq]
    omega
  simp only [joinPairs, hfirst, hsecond, Bool.and_self, ↓reduceIte, List.cons.injEq, and_true]
  omega

/-! ## Written characters -/

/-- Pieces that are read where text is written that stands for the given code points. -/
structure ReadAs (text : List Char) (codes : List Nat) (pieces : List Piece) : Prop where
  read : ∀ start rest, rest ≠ [] →
    readPieces headCode start (text ++ rest) = pieces.foldr push (readPieces headCode start rest)
  join : ∀ more, joinPairs (pieces ++ more) = codes ++ joinPairs more

/-- A written character is read as one piece or as its two halves. -/
theorem exists_readAs_writeCode {code : Nat} (h : code.isValidChar) :
    ∃ pieces, ReadAs (writeCode code) [code] pieces := by
  have hvalid : code < 0xD800 ∨ 0xDFFF < code ∧ code < 0x110000 := h
  by_cases hbasic : code < 0x10000
  · unfold writeCode
    iterate 7
      split
      next heq =>
        refine ⟨[.plain code], fun start rest _ => ?_, joinPairs_plain code⟩
        simp [readPieces, escapeCode?, heq]
    split
    next hplain =>
      simp only [Bool.and_eq_true, decide_eq_true_eq] at hplain
      refine ⟨[.plain code], fun start rest _ => ?_, joinPairs_plain code⟩
      exact readPieces_plain start hplain.1 hplain.2 ‹_› ‹_› rest
    next =>
      refine ⟨[.numbered code], fun start rest hrest => ?_, joinPairs_numbered ?_⟩
      · exact readPieces_unitEscape start hbasic hrest
      · simp only [isHighSurrogate, Bool.and_eq_false_iff, decide_eq_false_iff_not]
        omega
  · have hne (n : Nat) (hn : n < 0x10000) : code ≠ n := by omega
    have hwrite : writeCode code = unitEscape (0xD800 + (code - 0x10000) / 0x400) ++
        unitEscape (0xDC00 + (code - 0x10000) % 0x400) := by
      simp [writeCode, hne, hbasic]
      omega
    refine ⟨[.numbered _, .numbered _], fun start rest hrest => ?_,
      joinPairs_halves (Nat.le_of_not_lt hbasic) (hvalid.elim (by omega) And.right)⟩
    have hlow : unitEscape (0xDC00 + (code - 0x10000) % 0x400) ++ rest ≠ [] := by
      simp [hrest]
    rw [hwrite, List.append_assoc, readPieces_unitEscape start (by omega) hlow,
      readPieces_unitEscape start (by omega) hrest]
    rfl

/-- Written characters are read one after another. -/
theorem exists_readAs_flatMap {codes : List Nat} (h : ∀ code ∈ codes, code.isValidChar) :
    ∃ pieces, ReadAs (codes.flatMap writeCode) codes pieces := by
  induction codes with
  | nil => exact ⟨[], fun _ _ _ => rfl, fun _ => rfl⟩
  | cons code codes ih =>
    obtain ⟨first, hfirst⟩ := exists_readAs_writeCode (h code (by simp))
    obtain ⟨pieces, hpieces⟩ := ih fun c hc => h c (by simp [hc])
    refine ⟨first ++ pieces, fun start rest hrest => ?_, fun more => ?_⟩
    · have hmore : codes.flatMap writeCode ++ rest ≠ [] := by simp [hrest]
      rw [List.flatMap_cons, List.append_assoc, hfirst.read start _ hmore,
        hpieces.read start rest hrest, List.foldr_append]
    · rw [List.append_assoc, hfirst.join, hpieces.join]
      rfl

theorem foldr_push (pieces : List Piece) (rest : List Char) :
    pieces.foldr push (.ok ([], rest)) = .ok (pieces, rest) := by
  induction pieces with
  | nil => rfl
  | cons piece pieces ih => rw [List.foldr_cons, ih]; rfl

/-! ## Strings -/

/-- The code points of a string. -/
def codesOf (s : String) : List Nat := s.toList.map Char.toNat

theorem isValidChar_of_mem_codesOf {s : String} {code : Nat} (h : code ∈ codesOf s) :
    code.isValidChar := by
  obtain ⟨c, -, rfl⟩ := List.mem_map.1 h
  exact c.valid

theorem map_ofNat_codesOf (s : String) : String.ofList ((codesOf s).map Char.ofNat) = s := by
  simp [codesOf, Function.comp_def, Char.ofNat_toNat]

/-- A written string is read back, as a value and as a name. -/
theorem readPieces_writeText (start : List Char) (s : String) (rest : List Char) :
    ∃ pieces, readPieces headCode start ((codesOf s).flatMap writeCode ++ '\x22' :: rest) =
        .ok (pieces, rest) ∧
      textOfCodes (joinPairs pieces) = .text s ∧ nameOfCodes (joinPairs pieces) = s := by
  have hvalid : ∀ code ∈ codesOf s, code.isValidChar := fun code => isValidChar_of_mem_codesOf
  obtain ⟨pieces, hpieces⟩ := exists_readAs_flatMap hvalid
  have hjoin : joinPairs pieces = codesOf s := by simpa [joinPairs] using hpieces.join []
  refine ⟨pieces, ?_, ?_⟩
  · rw [hpieces.read start _ (List.cons_ne_nil _ _), readPieces_quote, foldr_push]
  · rw [hjoin]
    constructor
    · have hall : (codesOf s).all Nat.isValidChar = true := by simpa using hvalid
      rw [textOfCodes, if_pos hall, map_ofNat_codesOf]
    · rw [nameOfCodes, Value.charactersOf]
      refine Eq.trans (congrArg _ (List.map_congr_left fun code h => ?_)) (map_ofNat_codesOf s)
      rw [if_pos (hvalid code h)]

end SellRules.Json
