import Mathlib.Data.List.TakeWhile
import Cepheus.Scamper.Reader

/-!
# What the daemon writes

The stream of the daemon is a sequence of control lines and `DATA` frames. `iterate_control` and
`iterate_frame` say what the reader makes of the first one, whatever follows: it gets every control
line, and every frame that has an id. Of a frame without an id it gets the header only.
-/

namespace Cepheus.Scamper

open Infra

/-- The id of a command: printable ASCII, no blanks. -/
structure Token where
  octets : Octets
  ne_nil : octets ≠ []
  graphic : ∀ o ∈ octets, 0x21 ≤ o ∧ o ≤ 0x7E
deriving DecidableEq, Repr

/-- The first word of a control line. -/
inductive Word where
  | ok
  | err
  | more
deriving DecidableEq, Repr

def Word.octets : Word → Octets
  | ok => wordOK
  | err => wordERR
  | more => wordMORE

/-- What follows the word on the line. -/
structure Text where
  octets : Octets
  oneLine : newline ∉ octets
deriving DecidableEq, Repr

structure Control where
  word : Word
  text : Text
deriving DecidableEq, Repr

def Control.line (c : Control) : Octets := c.word.octets ++ c.text.octets

/-- A `DATA` frame. The length is a number in the header, and the payload can be anything that has
this length. -/
structure Frame where
  id : Option Token
  digits : Octets
  payload : Octets
  ne_nil : digits ≠ []
  isNumber : ∀ o ∈ digits, isDigit o = true
  length_eq : value digits = payload.length
  /-- A length is an `int`. -/
  fits : payload.length < 2 ^ 63
deriving DecidableEq, Repr

/-- The optional last field of the header. -/
def idField : Option Token → Octets
  | none => []
  | some id => 0x20 :: id.octets

def Frame.header (f : Frame) : Octets := wordDATA ++ 0x20 :: (f.digits ++ idField f.id)

inductive Item where
  | control (c : Control)
  | frame (f : Frame)
deriving DecidableEq, Repr

def Item.encode : Item → Octets
  | control c => c.line ++ [newline]
  | frame f => f.header ++ newline :: f.payload

/-! ## Lines -/

theorem Token.not_isSpace (id : Token) {o : UInt8} (h : o ∈ id.octets) : isSpace o = false := by
  obtain ⟨hlo, hhi⟩ := id.graphic o h
  rw [UInt8.le_iff_toNat_le] at hlo hhi
  simp only [isSpace, Bool.or_eq_false_iff, beq_eq_false_iff_ne, Bool.and_eq_false_iff,
    decide_eq_false_iff_not, UInt8.le_iff_toNat_le, ← UInt8.toNat_inj, ne_eq]
  simp only [UInt8.reduceToNat] at *
  omega

theorem not_isSpace_of_isDigit {o : UInt8} (h : isDigit o = true) : isSpace o = false := by
  simp only [isDigit, Bool.and_eq_true, decide_eq_true_eq, UInt8.le_iff_toNat_le] at h
  simp only [isSpace, Bool.or_eq_false_iff, beq_eq_false_iff_ne, Bool.and_eq_false_iff,
    decide_eq_false_iff_not, UInt8.le_iff_toNat_le, ← UInt8.toNat_inj, ne_eq]
  simp only [UInt8.reduceToNat] at *
  omega

theorem ne_newline {o : UInt8} (h : isSpace o = false) : o ≠ newline := by
  rintro rfl
  exact absurd h (by decide)

theorem readString_line {line : Octets} (h : newline ∉ line) (rest : Octets) :
    readString (line ++ newline :: rest) = some (line, rest) := by
  have hline : ∀ o ∈ line, (o != newline) = true := by
    intro o ho
    exact bne_iff_ne.mpr fun heq => h (heq ▸ ho)
  rw [readString, List.dropWhile_append_of_pos hline, List.takeWhile_append_of_pos hline]
  simp

theorem Control.newline_notMem (c : Control) : newline ∉ c.line := by
  intro h
  rcases List.mem_append.mp h with h | h
  · revert h
    cases c.word <;> decide
  · exact c.text.oneLine h

theorem newline_notMem_idField (id : Option Token) : newline ∉ idField id := by
  cases id with
  | none => exact List.not_mem_nil
  | some id =>
    intro h
    rcases List.mem_cons.mp h with h | h
    · exact absurd h (by decide)
    · exact ne_newline (id.not_isSpace h) rfl

theorem Frame.newline_notMem (f : Frame) : newline ∉ f.header := by
  intro h
  rcases List.mem_append.mp h with h | h
  · exact absurd h (by decide)
  rcases List.mem_cons.mp h with h | h
  · exact absurd h (by decide)
  rcases List.mem_append.mp h with h | h
  · exact ne_newline (not_isSpace_of_isDigit (f.isNumber _ h)) rfl
  · exact newline_notMem_idField f.id h

/-! ## Headers -/

theorem literal_append (word line : Octets) : literal word (word ++ line) = some line := by
  rw [literal, if_pos (List.isPrefixOf_iff_prefix.mpr (List.prefix_append ..)), List.drop_left]

/-- A blank in front of something that is not one. -/
theorem blanks_cons {line : Octets} (h : ∀ o ∈ line.head?, isSpace o = false) :
    blanks (0x20 :: line) = some line := by
  rw [blanks, if_pos (by decide)]
  cases line with
  | nil => rfl
  | cons o line => rw [List.dropWhile_cons_of_neg (by simp [h o rfl])]

/-- A word that ends with the line. -/
theorem token_octets (id : Token) : token id.octets = some (id.octets, []) := by
  have hword : ∀ o ∈ id.octets, (!isSpace o) = true := by
    intro o ho
    rw [id.not_isSpace ho, Bool.not_false]
  obtain ⟨o, rest, heq⟩ := List.exists_cons_of_ne_nil id.ne_nil
  have hskip : id.octets.dropWhile isSpace = o :: rest := by
    rw [heq, List.dropWhile_cons_of_neg (by simp [id.not_isSpace (heq ▸ List.mem_cons_self)])]
  rw [token, hskip]
  simp only
  rw [← heq, List.takeWhile_eq_self_iff.mpr hword, List.dropWhile_eq_nil_iff.mpr hword]

theorem sign_digits {digits : Octets} (h : ∀ o ∈ digits, isDigit o = true) (hne : digits ≠ [])
    (line : Octets) : sign (digits ++ line) = (false, digits ++ line) := by
  obtain ⟨o, rest, rfl⟩ := List.exists_cons_of_ne_nil hne
  have ho := h o List.mem_cons_self
  rw [List.cons_append]
  unfold sign
  split
  · rename_i heq
    cases heq
    exact absurd ho (by decide)
  · rename_i heq
    cases heq
    exact absurd ho (by decide)
  · rfl

/-- A number that is followed by something else. -/
theorem integer_digits {digits : Octets} (h : ∀ o ∈ digits, isDigit o = true) (hne : digits ≠ [])
    {line : Octets} (hline : ∀ o ∈ line.head?, isDigit o = false) (hfits : value digits < 2 ^ 63) :
    integer (digits ++ line) = some (↑(value digits), line) := by
  have hskip : (digits ++ line).dropWhile isSpace = digits ++ line := by
    obtain ⟨o, rest, rfl⟩ := List.exists_cons_of_ne_nil hne
    rw [List.cons_append, List.dropWhile_cons_of_neg
      (by simp [not_isSpace_of_isDigit (h o List.mem_cons_self)])]
  have htake : line.takeWhile isDigit = [] ∧ line.dropWhile isDigit = line := by
    cases line with
    | nil => exact ⟨rfl, rfl⟩
    | cons o line => simp [hline o rfl]
  rw [integer, hskip, sign_digits h hne]
  simp only [Bool.false_eq_true, if_false]
  rw [List.takeWhile_append_of_pos h, List.dropWhile_append_of_pos h, htake.1, htake.2,
    List.append_nil, if_pos ⟨hne, by omega, by omega⟩]

theorem head?_header (f : Frame) (line : Octets) :
    ∀ o ∈ (f.digits ++ line).head?, isSpace o = false := by
  intro o ho
  obtain ⟨d, rest, heq⟩ := List.exists_cons_of_ne_nil f.ne_nil
  rw [heq, List.cons_append, List.head?_cons, Option.mem_def, Option.some.injEq] at ho
  subst ho
  exact not_isSpace_of_isDigit (f.isNumber d (heq ▸ List.mem_cons_self))

theorem head?_idField (id : Option Token) : ∀ o ∈ (idField id).head?, isDigit o = false := by
  cases id with
  | none => simp [idField]
  | some id =>
    intro o ho
    obtain rfl : 0x20 = o := Option.some.inj ho
    decide

/-- The scan of a header: the length and the id, if there is one. -/
theorem Frame.scanDATA_header (f : Frame) :
    scanDATA f.header = f.id.map fun id => (↑f.payload.length, id.octets) := by
  have hfits : value f.digits < 2 ^ 63 := f.length_eq ▸ f.fits
  simp only [scanDATA, Frame.header, literal_append, Option.bind_eq_bind, Option.bind_some,
    blanks_cons (head?_header f (idField f.id)),
    integer_digits f.isNumber f.ne_nil (head?_idField f.id) hfits, f.length_eq]
  cases f.id with
  | none => rfl
  | some id =>
    have hhead : ∀ o ∈ id.octets.head?, isSpace o = false := by
      intro o ho
      exact id.not_isSpace (List.mem_of_mem_head? ho)
    simp only [idField, blanks_cons hhead, Option.bind_some, token_octets]
    rfl

/-- The scan of an `OK` line with an id. -/
theorem scanOK_token (id : Token) : scanOK (wordOK ++ 0x20 :: id.octets) = id.octets := by
  have hhead : ∀ o ∈ id.octets.head?, isSpace o = false := by
    intro o ho
    exact id.not_isSpace (List.mem_of_mem_head? ho)
  simp only [scanOK, literal_append, Option.bind_some, blanks_cons hhead, token_octets]

/-! ## One iteration -/

/-- What a control line is to the reader. -/
def Control.message (c : Control) : Message :=
  match c.word with
  | .ok => .ok (scanOK c.line)
  | .err => .err
  | .more => .more

/-- What the reader takes off the stream for a frame. Without an id the header cannot be scanned,
and the payload stays where it is. -/
def Frame.iteration (f : Frame) (rest : Octets) : Iteration :=
  match f.id with
  | none => { line := f.header, message := .malformed, rest := f.payload ++ rest }
  | some id => { line := f.header, message := .data id.octets f.payload, rest }

theorem iterate_control (c : Control) (rest : Octets) :
    iterate ((Item.control c).encode ++ rest) =
      some { line := c.line, message := c.message, rest } := by
  rw [Item.encode, List.append_assoc, List.singleton_append, iterate,
    readString_line c.newline_notMem]
  obtain ⟨word, text⟩ := c
  cases word <;>
    simp [Control.line, Control.message, Word.octets, wordERR, wordMORE, wordOK, List.isPrefixOf]

theorem readDATA_header (f : Frame) (rest : Octets) :
    readDATA f.header (f.payload ++ rest) =
      some ((f.iteration rest).message, (f.iteration rest).rest) := by
  rw [readDATA, f.scanDATA_header, Frame.iteration]
  cases f.id with
  | none => rfl
  | some id =>
    have hlen : ¬ (f.payload ++ rest).length < f.payload.length := by
      rw [List.length_append]
      omega
    simp only [Option.map_some, Int.toNat_natCast, readFull, if_neg hlen, List.take_left,
      List.drop_left]
    rw [if_neg (by omega)]

theorem iterate_frame (f : Frame) (rest : Octets) :
    iterate ((Item.frame f).encode ++ rest) = some (f.iteration rest) := by
  have hline : (f.iteration rest).line = f.header := by
    rw [Frame.iteration]
    cases f.id <;> rfl
  have hword : wordERR.isPrefixOf f.header = false ∧ wordMORE.isPrefixOf f.header = false ∧
      wordOK.isPrefixOf f.header = false ∧ wordDATA.isPrefixOf f.header = true := by
    simp [Frame.header, wordERR, wordMORE, wordOK, wordDATA, List.isPrefixOf]
  rw [Item.encode, List.append_assoc, List.cons_append, iterate, readString_line f.newline_notMem]
  simp only [hword, readDATA_header, Bool.false_eq_true, if_false, if_true]
  rw [← hline]

end Cepheus.Scamper
