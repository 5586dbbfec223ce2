import Mathlib.Algebra.Order.Ring.Int
import Cepheus.Infra.Octets

/-!
# The reader of the scamper socket

`libs/scamper-client/client.go`, the part of `StartRead` that takes one message after the other off
the stream of the daemon. What it then does with a message is in `Scamper.Client`.

A line is scanned octet by octet. Go decodes it as UTF-8 first, which is the same for ASCII text;
the words, lengths and ids of the daemon are ASCII.
-/

namespace Cepheus.Scamper

open Infra

def newline : UInt8 := 0x0A

/-! ## Scanning a line with `fmt.Sscanf` -/

/-- White space of `fmt`. -/
def isSpace (o : UInt8) : Bool := o == 0x20 || (0x09 ≤ o && o ≤ 0x0D)

def isDigit (o : UInt8) : Bool := 0x30 ≤ o && o ≤ 0x39

/-- The number with the given decimal digits. -/
def value (digits : Octets) : Nat := digits.foldl (fun n o => n * 10 + (o.toNat - 0x30)) 0

/-- A word of the format has to stand in the line. -/
def literal (word line : Octets) : Option Octets :=
  if word.isPrefixOf line then some (line.drop word.length) else none

/-- A blank of the format stands for white space in the line, or for the end of the line. -/
def blanks : Octets → Option Octets
  | [] => some []
  | o :: line => if isSpace o then some (line.dropWhile isSpace) else none

/-- The verb `%s`: the next word, if there is one. -/
def token (line : Octets) : Option (Octets × Octets) :=
  match line.dropWhile isSpace with
  | [] => none
  | o :: line =>
    some ((o :: line).takeWhile fun o => !isSpace o, (o :: line).dropWhile fun o => !isSpace o)

/-- A sign in front of a number. -/
def sign : Octets → Bool × Octets
  | 0x2B :: line => (false, line)
  | 0x2D :: line => (true, line)
  | line => (false, line)

/-- The verb `%d` for an `int`: the next number, if there is one and it fits 64 bits. -/
def integer (line : Octets) : Option (Int × Octets) :=
  let (negative, line) := sign (line.dropWhile isSpace)
  let digits := line.takeWhile isDigit
  let n : Int := if negative then -value digits else value digits
  if digits ≠ [] ∧ -2 ^ 63 ≤ n ∧ n < 2 ^ 63 then some (n, line.dropWhile isDigit) else none

def wordERR : Octets := [0x45, 0x52, 0x52]
def wordMORE : Octets := [0x4D, 0x4F, 0x52, 0x45]
def wordOK : Octets := [0x4F, 0x4B]
def wordDATA : Octets := [0x44, 0x41, 0x54, 0x41]

/-- `fmt.Sscanf(line, "OK %s", &id)`. Where the scan fails the id is left empty, and the error is
ignored. -/
def scanOK (line : Octets) : Octets :=
  match (literal wordOK line).bind fun line => (blanks line).bind token with
  | none => []
  | some (id, _) => id

/-- `fmt.Sscanf(line, "DATA %d %s", &length, &id)`. -/
def scanDATA (line : Octets) : Option (Int × Octets) := do
  let line ← literal wordDATA line
  let line ← blanks line
  let (length, line) ← integer line
  let line ← blanks line
  let (id, _) ← token line
  return (length, id)

/-! ## Reading from the stream -/

/-- What one iteration of the loop has read. -/
inductive Message where
  | err
  | more
  /-- The id is empty if there is none. -/
  | ok (id : Octets)
  | data (id payload : Octets)
  /-- A `DATA` line that cannot be scanned. The loop goes on with the next line. -/
  | malformed
  /-- A negative length: `make([]byte, length)` panics. -/
  | panics
  /-- A line with another first word. -/
  | ignored
deriving DecidableEq, Repr

/-- `ReadString('\n')`, and the line without its end. It needs a whole line. -/
def readString (stream : Octets) : Option (Octets × Octets) :=
  match stream.dropWhile (· != newline) with
  | [] => none
  | _ :: rest => some (stream.takeWhile (· != newline), rest)

/-- `io.ReadFull` into a buffer of the given length. -/
def readFull (length : Nat) (stream : Octets) : Option (Octets × Octets) :=
  if stream.length < length then none else some (stream.take length, stream.drop length)

/-- The branch for a `DATA` line. -/
def readDATA (line stream : Octets) : Option (Message × Octets) :=
  match scanDATA line with
  | none => some (.malformed, stream)
  | some (length, id) =>
    if length < 0 then some (.panics, stream)
    else
      match readFull length.toNat stream with
      | none => none
      | some (buf, stream) => some (.data id buf, stream)

/-- An iteration of the loop: the line it has read, the message, and the rest of the stream. -/
structure Iteration where
  line : Octets
  message : Message
  rest : Octets

/--
One iteration of the loop, as far as the stream has come. It is `none` where the iteration has to
wait for more; once the stream has ended, the read fails instead, and so does every later one.
-/
def iterate (stream : Octets) : Option Iteration :=
  match readString stream with
  | none => none
  | some (line, rest) =>
    if wordERR.isPrefixOf line then some { line, message := .err, rest }
    else if wordMORE.isPrefixOf line then some { line, message := .more, rest }
    else if wordOK.isPrefixOf line then some { line, message := .ok (scanOK line), rest }
    else if wordDATA.isPrefixOf line then
      match readDATA line rest with
      | none => none
      | some (message, rest) => some { line, message, rest }
    else some { line, message := .ignored, rest }

/-- At most `fuel` iterations. A panic ends the loop. -/
def iterations : Nat → Octets → List Iteration
  | 0, _ => []
  | fuel + 1, stream =>
    match iterate stream with
    | none => []
    | some it => it :: if it.message = .panics then [] else iterations fuel it.rest

/-- The iterations of `StartRead` on a stream. Every one of them takes off a line, so there are at
most as many as there are octets. -/
def startRead (stream : Octets) : List Iteration := iterations stream.length stream

/-! ## Every iteration makes progress -/

theorem length_readString {stream line rest : Octets} (h : readString stream = some (line, rest)) :
    rest.length < stream.length := by
  have hsuffix := (List.dropWhile_suffix (l := stream) (· != newline)).length_le
  unfold readString at h
  cases hd : stream.dropWhile (· != newline) with
  | nil =>
    rw [hd] at h
    cases h
  | cons o tail =>
    rw [hd] at h hsuffix
    cases h
    exact hsuffix

theorem length_readDATA {line stream rest : Octets} {message : Message}
    (h : readDATA line stream = some (message, rest)) : rest.length ≤ stream.length := by
  unfold readDATA at h
  cases hs : scanDATA line with
  | none =>
    rw [hs] at h
    cases h
    exact Nat.le_refl _
  | some x =>
    obtain ⟨length, id⟩ := x
    simp only [hs] at h
    split at h
    · cases h
      exact Nat.le_refl _
    · unfold readFull at h
      split at h
      · cases h
      · rename_i hread
        split at hread
        · cases hread
        · cases hread
          cases h
          rw [List.length_drop]
          exact Nat.sub_le ..

theorem length_iterate {stream : Octets} {it : Iteration} (h : iterate stream = some it) :
    it.rest.length < stream.length := by
  unfold iterate at h
  cases hr : readString stream with
  | none =>
    rw [hr] at h
    cases h
  | some x =>
    obtain ⟨line, rest⟩ := x
    have hlt := length_readString hr
    simp only [hr] at h
    split at h
    · cases h
      exact hlt
    split at h
    · cases h
      exact hlt
    split at h
    · cases h
      exact hlt
    split at h
    · cases hd : readDATA line rest with
      | none =>
        rw [hd] at h
        cases h
      | some y =>
        rw [hd] at h
        cases h
        exact Nat.lt_of_le_of_lt (length_readDATA hd) hlt
    · cases h
      exact hlt

/-- More iterations than octets change nothing. -/
theorem iterations_of_le : ∀ {fuel : Nat} {stream : Octets}, stream.length ≤ fuel →
    iterations fuel stream = startRead stream
  | 0, stream, h => by rw [startRead, Nat.le_zero.mp h]
  | fuel + 1, stream, h => by
    cases hit : iterate stream with
    | none =>
      cases hl : stream.length with
      | zero => simp only [startRead, hl, iterations, hit]
      | succ n => simp only [startRead, hl, iterations, hit]
    | some it =>
      have hlt := length_iterate hit
      obtain ⟨n, hn⟩ : ∃ n, stream.length = n + 1 := ⟨stream.length - 1, by omega⟩
      rw [startRead, hn, iterations, iterations, hit]
      simp only
      have hfuel : it.rest.length ≤ fuel := by omega
      have hrest : it.rest.length ≤ n := by omega
      rw [iterations_of_le hfuel, iterations_of_le hrest]

theorem startRead_none {stream : Octets} (h : iterate stream = none) : startRead stream = [] := by
  rw [← iterations_of_le (Nat.le_succ _), iterations, h]

/-- `StartRead` is its first iteration and then the rest. -/
theorem startRead_some {stream : Octets} {it : Iteration} (h : iterate stream = some it) :
    startRead stream = it :: if it.message = .panics then [] else startRead it.rest := by
  rw [← iterations_of_le (Nat.le_succ _), iterations, h]
  simp only
  rw [iterations_of_le (Nat.le_of_lt (length_iterate h))]

end Cepheus.Scamper
