import Cepheus.Infra.JsonText

/-!
# Reading what was written

The text of a JSON value is read back as this value (`Json.parse_print`). Strings and numbers come
first: a string ends at its quote, because no quote in it is written as one; a number ends where no
digit, point or exponent follows.
-/

namespace Cepheus.Infra.Json

/-! ## Strings -/

theorem hexValue_digitChar : ∀ n < 16, hexValue (Nat.digitChar n) = some n := by decide

theorem getu4_hex4 {n : Nat} (h : n < 65536) (rest : List Char) :
    getu4 (hex4 n ++ rest) = some (n, rest) := by
  have hlt : ∀ k, k % 16 < 16 := fun k => Nat.mod_lt k (by decide)
  simp only [hex4, List.cons_append, List.nil_append, getu4, hexValue_digitChar _ (hlt _),
    Option.bind_eq_bind, Option.bind_some, Option.pure_def, Option.some.injEq, Prod.mk.injEq,
    and_true]
  omega

theorem unescape_shortEscape {c d : Char} (h : shortEscape c.toNat = some d) :
    d ≠ 'u' ∧ unescape d = some c := by
  rw [← Char.ofNat_toNat c]
  generalize c.toNat = n at h
  unfold shortEscape at h
  -- one case for each of the short forms
  repeat' split at h
  all_goals cases h
  all_goals
    subst n
    decide

/-- A character that is written by number is none of the surrogates. -/
theorem unicode_hex4 {c : Char} (h : escaped c.toNat = true) (rest : List Char) :
    unicode (hex4 c.toNat ++ rest) = some (c, rest) := by
  have hlt : c.toNat < 0xd800 := by
    simp only [escaped, Bool.or_eq_true, decide_eq_true_eq] at h
    omega
  rw [unicode, getu4_hex4 (by omega)]
  simp only
  rw [if_neg (by omega), Char.ofNat_toNat]

theorem toNat_ne_of_shortEscape {c : Char} (h : shortEscape c.toNat = none) :
    c ≠ '"' ∧ c ≠ '\\' := by
  constructor
  · rintro rfl
    exact absurd h (by decide)
  · rintro rfl
    exact absurd h (by decide)

/-- One character of a string. -/
theorem stringBody_escape (fuel : Nat) (c : Char) (s : List Char) :
    stringBody (fuel + 1) (escape c ++ s) =
      (stringBody fuel s).map fun (cs, s) => (c :: cs, s) := by
  unfold escape
  cases hshort : shortEscape c.toNat with
  | some d =>
    obtain ⟨hu, hun⟩ := unescape_shortEscape hshort
    simp [stringBody, hu, hun]
  | none =>
    obtain ⟨hquote, hslash⟩ := toNat_ne_of_shortEscape hshort
    cases hesc : escaped c.toNat with
    | true => simp [stringBody, unicode_hex4 hesc]
    | false =>
      have hprint : ¬ c.toNat < 32 := by
        simp only [escaped, Bool.or_eq_false_iff, decide_eq_false_iff_not] at hesc
        exact hesc.1.1.1.1.1
      simp [stringBody, hquote, hslash, hprint]

/-- The rest of a string. -/
theorem stringBody_flatMap (rest : List Char) :
    ∀ (cs : List Char) {fuel : Nat}, (cs.flatMap escape).length < fuel →
      stringBody fuel (cs.flatMap escape ++ '"' :: rest) = some (cs, rest)
  | [], fuel + 1, _ => rfl
  | c :: cs, fuel + 1, h => by
    have hpos : 0 < (escape c).length := by
      unfold escape
      split
      · simp
      · split <;> simp
    rw [List.flatMap_cons, List.length_append] at h
    rw [List.flatMap_cons, List.append_assoc, stringBody_escape,
      stringBody_flatMap rest cs (by omega)]
    rfl

/-! ## Numbers -/

/-- What may follow a number. -/
def Ends (rest : List Char) : Prop :=
  ∀ c ∈ rest.head?, c.isDigit = false ∧ c ≠ '.' ∧ c ≠ 'e' ∧ c ≠ 'E'

theorem digits_append {ds rest : List Char} (hne : ds ≠ []) (hds : ∀ c ∈ ds, c.isDigit = true)
    (hrest : ∀ c ∈ rest.head?, c.isDigit = false) : digits (ds ++ rest) = some (ds, rest) := by
  have htake : (ds ++ rest).takeWhile Char.isDigit = ds := by
    rw [List.takeWhile_append_of_pos hds]
    cases rest with
    | nil => simp
    | cons c rest => simp [hrest c rfl]
  have hdrop : (ds ++ rest).dropWhile Char.isDigit = rest := by
    rw [List.dropWhile_append_of_pos hds]
    cases rest with
    | nil => rfl
    | cons c rest => simp [hrest c rfl]
  rw [digits, htake, hdrop]
  cases ds with
  | nil => exact absurd rfl hne
  | cons c ds => rfl

/-- A number that is not zero does not begin with a zero. -/
theorem head?_toDigits {n : Nat} (h : 0 < n) : (Nat.toDigits 10 n).head? ≠ some '0' := by
  induction n using Nat.strong_induction_on with
  | _ n ih =>
    rw [Nat.toDigits_eq_if (by decide)]
    split
    · next hlt =>
      have hdigit : ∀ k < 10, 0 < k → Nat.digitChar k ≠ '0' := by decide
      simpa using hdigit n hlt h
    · next hge =>
      have hhigh := ih (n / 10) (by omega) (by omega)
      obtain ⟨c, ds, hds⟩ :=
        List.exists_cons_of_ne_nil (Nat.toDigits_ne_nil : Nat.toDigits 10 (n / 10) ≠ [])
      rw [hds] at hhigh ⊢
      exact hhigh

theorem isDigit_toDigits {n : Nat} : ∀ c ∈ Nat.toDigits 10 n, c.isDigit = true :=
  fun _ => Nat.isDigit_of_mem_toDigits (by decide) (by decide)

/-- The digits in front of a point, or of the end. -/
structure IntegerDigits (ds : List Char) : Prop where
  nonempty : ds ≠ []
  digits : ∀ c ∈ ds, c.isDigit = true
  canonical : ds.head? = some '0' → ds.length = 1

theorem integerDigits_toDigits (n : Nat) : IntegerDigits (Nat.toDigits 10 n) where
  nonempty := Nat.toDigits_ne_nil
  digits := isDigit_toDigits
  canonical := fun h => by
    rcases Nat.eq_zero_or_pos n with rfl | hpos
    · rfl
    · exact absurd h (head?_toDigits hpos)

theorem integerPart_append {ds rest : List Char} (h : IntegerDigits ds)
    (hrest : ∀ c ∈ rest.head?, c.isDigit = false) :
    integerPart (ds ++ rest) = some (ds, rest) := by
  simp only [integerPart, digits_append h.nonempty h.digits hrest, Option.bind_eq_bind,
    Option.bind_some]
  rw [if_neg fun hbad => hbad.2 (h.canonical hbad.1)]

theorem exponent_of_ends {rest : List Char} (h : Ends rest) :
    exponent rest = some (none, rest) := by
  cases rest with
  | nil => rfl
  | cons c rest =>
    obtain ⟨-, -, he, hE⟩ := h c rfl
    simp [exponent, he, hE]

theorem fraction_of_ends {rest : List Char} (h : Ends rest) : fraction rest = some ([], rest) := by
  cases rest with
  | nil => rfl
  | cons c rest =>
    obtain ⟨-, hpoint, -, -⟩ := h c rfl
    unfold fraction
    split
    · next heq => exact absurd (List.cons.inj heq).1 hpoint
    · rfl

theorem ends_notDigit {rest : List Char} (h : Ends rest) :
    ∀ c ∈ rest.head?, c.isDigit = false := fun c hc => (h c hc).1

/-- A number without a point. -/
theorem numberBody_integer {ds rest : List Char} (negative : Bool) (h : IntegerDigits ds)
    (hrest : Ends rest) :
    numberBody negative (ds ++ rest) = some (assemble negative ds [] none, rest) := by
  simp [numberBody, integerPart_append h (ends_notDigit hrest), fraction_of_ends hrest,
    exponent_of_ends hrest]

/-- A number with a point. -/
theorem numberBody_fraction {int frac rest : List Char} (negative : Bool)
    (hint : IntegerDigits int) (hne : frac ≠ []) (hfrac : ∀ c ∈ frac, c.isDigit = true)
    (hrest : Ends rest) :
    numberBody negative (int ++ '.' :: (frac ++ rest)) =
      some (assemble negative int frac none, rest) := by
  have hpoint : ∀ c ∈ ('.' :: (frac ++ rest)).head?, c.isDigit = false := by
    intro c hc
    obtain rfl := Option.some.inj hc
    decide
  simp [numberBody, integerPart_append hint hpoint, fraction,
    digits_append hne hfrac (ends_notDigit hrest), exponent_of_ends hrest]

theorem ofDigitChars_replicate_zero (k : Nat) (ds : List Char) :
    Nat.ofDigitChars 10 (List.replicate k '0' ++ ds) 0 = Nat.ofDigitChars 10 ds 0 := by
  induction k with
  | zero => rfl
  | succ k ih => simpa [List.replicate_succ, Nat.ofDigitChars_cons] using ih

theorem ofDigitChars_padded (width n : Nat) : Nat.ofDigitChars 10 (padded width n) 0 = n := by
  rw [padded, ofDigitChars_replicate_zero, Nat.ofDigitChars_toDigits (by decide) (by decide)]

theorem isDigit_padded {width n : Nat} : ∀ c ∈ padded width n, c.isDigit = true := by
  intro c hc
  rcases List.mem_append.mp hc with hc | hc
  · rw [List.eq_of_mem_replicate hc]
    decide
  · exact isDigit_toDigits c hc

theorem le_length_padded (width n : Nat) : width ≤ (padded width n).length := by
  rw [padded, List.length_append, List.length_replicate]
  omega

/-- The digits in front of the point of a number with a scale. -/
theorem integerDigits_padded (scale n : Nat) :
    IntegerDigits ((padded (scale + 1) n).take ((padded (scale + 1) n).length - scale)) where
  nonempty := by
    have hle := le_length_padded (scale + 1) n
    intro hnil
    have hlen := congrArg List.length hnil
    rw [List.length_take] at hlen
    simp only [List.length_nil] at hlen
    omega
  digits := fun c hc => isDigit_padded c (List.mem_of_mem_take hc)
  canonical := by
    intro hhead
    have hlength : (padded (scale + 1) n).length =
        max (scale + 1) (Nat.toDigits 10 n).length := by
      rw [padded, List.length_append, List.length_replicate]
      omega
    rw [List.length_take]
    by_contra hne
    -- more than one digit in front of the point: then nothing was padded
    have hpad : scale + 1 - (Nat.toDigits 10 n).length = 0 := by omega
    rw [padded, hpad, List.replicate_zero, List.nil_append] at hhead
    rw [List.head?_take, if_neg (by rw [padded, List.length_append] at hne; omega)] at hhead
    have hcanonical := (integerDigits_toDigits n).canonical hhead
    omega

/-- The sign of a number. -/
theorem sign_natAbs (n : Int) : (if decide (n < 0) then -(n.natAbs : Int) else n.natAbs) = n := by
  split
  · next h =>
    have h := of_decide_eq_true h
    omega
  · next h =>
    have h : ¬ n < 0 := fun hn => h (decide_eq_true hn)
    omega

theorem ne_of_isDigit {c : Char} (h : c.isDigit = true) :
    c ≠ '-' ∧ c ≠ '"' ∧ c ≠ '[' ∧ c ≠ '\x7b' ∧ c ≠ 'n' ∧ c ≠ 't' ∧ c ≠ 'f' ∧ isSpace c = false := by
  have hall : ∀ d : Char, d.isDigit = false → c ≠ d := by
    rintro d hd rfl
    rw [h] at hd
    cases hd
  refine ⟨hall _ (by decide), hall _ (by decide), hall _ (by decide), hall _ (by decide),
    hall _ (by decide), hall _ (by decide), hall _ (by decide), ?_⟩
  simp [isSpace, hall ' ' (by decide), hall '\t' (by decide), hall '\n' (by decide),
    hall '\r' (by decide)]

theorem IntegerDigits.head {ds : List Char} (h : IntegerDigits ds) (rest : List Char) :
    ∃ c cs, ds ++ rest = c :: cs ∧ c.isDigit = true := by
  obtain ⟨c, cs, rfl⟩ := List.exists_cons_of_ne_nil h.nonempty
  exact ⟨c, cs ++ rest, rfl, h.digits c List.mem_cons_self⟩

/-- The sign in front of some digits. -/
theorem parseNumber_sign (n : Int) {ds : List Char} (h : IntegerDigits ds) (rest : List Char) :
    parseNumber ((if n < 0 then ['-'] else []) ++ (ds ++ rest)) =
      numberBody (decide (n < 0)) (ds ++ rest) := by
  by_cases hn : n < 0
  · simp [hn, parseNumber]
  · obtain ⟨c, cs, heq, hc⟩ := h.head rest
    simp only [hn, if_false, List.nil_append, decide_false, heq]
    unfold parseNumber
    split
    · next hminus => exact absurd (List.cons.inj hminus).1 (ne_of_isDigit hc).1
    · rfl

theorem parseNumber_print (n : Number) {rest : List Char} (h : Ends rest) :
    parseNumber (n.print ++ rest) = some (n, rest) := by
  obtain ⟨mantissa, scale⟩ := n
  simp only [Number.print]
  split
  · next hscale =>
    subst hscale
    have hint := integerDigits_toDigits mantissa.natAbs
    rw [List.append_assoc, parseNumber_sign mantissa hint, numberBody_integer _ hint h, assemble,
      List.append_nil, Nat.ofDigitChars_toDigits (by decide) (by decide), sign_natAbs]
    rfl
  · next hscale =>
    have hint := integerDigits_padded scale mantissa.natAbs
    have hle := le_length_padded (scale + 1) mantissa.natAbs
    have hvalue := ofDigitChars_padded (scale + 1) mantissa.natAbs
    have hdigits : ∀ c ∈ padded (scale + 1) mantissa.natAbs, c.isDigit = true := isDigit_padded
    generalize padded (scale + 1) mantissa.natAbs = ds at hint hle hvalue hdigits ⊢
    have hfrac : (ds.drop (ds.length - scale)).length = scale := by
      rw [List.length_drop]
      omega
    have hne : ds.drop (ds.length - scale) ≠ [] := by
      intro hnil
      rw [hnil] at hfrac
      exact hscale hfrac.symm
    rw [List.append_assoc, List.append_assoc, List.cons_append, parseNumber_sign mantissa hint,
      numberBody_fraction _ hint hne (fun c hc => hdigits c (List.mem_of_mem_drop hc)) h, assemble,
      List.take_append_drop, hvalue, sign_natAbs, hfrac]

/-- The text of a number begins with a digit or a sign. -/
theorem Number.head_print (n : Number) (rest : List Char) :
    ∃ c cs, n.print ++ rest = c :: cs ∧ (c.isDigit = true ∨ c = '-') := by
  simp only [Number.print]
  by_cases hneg : n.mantissa < 0
  · split
    all_goals exact ⟨'-', _, rfl, .inr rfl⟩
  · split
    · obtain ⟨c, cs, heq, hc⟩ := (integerDigits_toDigits n.mantissa.natAbs).head rest
      exact ⟨c, cs, by simpa [hneg] using heq, .inl hc⟩
    · obtain ⟨c, cs, heq, hc⟩ := (integerDigits_padded n.scale n.mantissa.natAbs).head
        ('.' :: ((padded (n.scale + 1) n.mantissa.natAbs).drop
          ((padded (n.scale + 1) n.mantissa.natAbs).length - n.scale) ++ rest))
      exact ⟨c, cs, by simpa [hneg] using heq, .inl hc⟩

/-! ## Values -/

theorem skip_cons {c : Char} (h : isSpace c = false) (s : List Char) : skip (c :: s) = c :: s := by
  simp [skip, h]

theorem memberName_quote (key : String) (fuel : Nat) (h : (quote key).length ≤ fuel + 1)
    (rest : List Char) :
    memberName fuel (quote key ++ ':' :: rest) = some (key, rest) := by
  have hlen : (key.toList.flatMap escape).length < fuel := by
    rw [quote, List.length_cons, List.length_append, List.length_singleton] at h
    omega
  rw [quote, List.cons_append, List.append_assoc, List.singleton_append, memberName,
    skip_cons (by decide)]
  simp only [stringBody_flatMap _ _ hlen]
  rw [skip_cons (by decide)]
  simp

theorem value_quote (s : String) {fuel : Nat} (h : (quote s).length ≤ fuel) (rest : List Char) :
    value fuel (quote s ++ rest) = some (string s, rest) := by
  cases fuel with
  | zero => simp [quote] at h
  | succ fuel =>
    have hlen : (s.toList.flatMap escape).length < fuel := by
      rw [quote, List.length_cons, List.length_append, List.length_singleton] at h
      omega
    rw [quote, List.cons_append, List.append_assoc, List.singleton_append, value,
      skip_cons (by decide)]
    simp [stringBody_flatMap _ _ hlen]

theorem value_number (n : Number) {fuel : Nat} (h : n.print.length ≤ fuel) {rest : List Char}
    (hrest : Ends rest) : value fuel (n.print ++ rest) = some (number n, rest) := by
  have hparse := parseNumber_print n hrest
  cases fuel with
  | zero =>
    obtain ⟨c, cs, heq, -⟩ := n.head_print []
    rw [List.append_nil] at heq
    rw [heq] at h
    simp at h
  | succ fuel =>
    obtain ⟨c, cs, heq, hc⟩ := n.head_print rest
    have hne : c ≠ '"' ∧ c ≠ '[' ∧ c ≠ '\x7b' ∧ c ≠ 'n' ∧ c ≠ 't' ∧ c ≠ 'f' ∧
        isSpace c = false := by
      rcases hc with hc | rfl
      · exact (ne_of_isDigit hc).2
      · decide
    obtain ⟨h1, h2, h3, h4, h5, h6, hspace⟩ := hne
    rw [heq] at hparse ⊢
    rw [value, skip_cons hspace]
    simp [h1, h2, h3, h4, h5, h6, hparse]

/-- The first character of a value: no space, and no bracket that closes. -/
theorem head_print (json : Json) (rest : List Char) :
    ∃ c cs, print json ++ rest = c :: cs ∧ isSpace c = false ∧ c ≠ ']' := by
  match json with
  | null | bool true | bool false | string _ | array [] | array (_ :: _) | object []
  | object ((_, _) :: _) =>
    simp only [print, quote]
    exact ⟨_, _, rfl, by decide, by decide⟩
  | number n =>
    obtain ⟨c, cs, heq, hc⟩ := n.head_print rest
    refine ⟨c, cs, by rw [print, heq], ?_⟩
    rcases hc with hc | rfl
    · exact ⟨(ne_of_isDigit hc).2.2.2.2.2.2.2, by rintro rfl; cases hc⟩
    · decide

theorem ends_cons {c : Char} (h : c.isDigit = false ∧ c ≠ '.' ∧ c ≠ 'e' ∧ c ≠ 'E')
    (rest : List Char) : Ends (c :: rest) := by
  intro d hd
  obtain rfl := Option.some.inj hd
  exact h

theorem ends_printElements (elements : List Json) (rest : List Char) :
    Ends (printElements elements ++ rest) := by
  cases elements <;> exact ends_cons (by decide) _

theorem ends_printMembers (members : List (String × Json)) (rest : List Char) :
    Ends (printMembers members ++ rest) := by
  rcases members with _ | ⟨⟨key, json⟩, members⟩ <;> exact ends_cons (by decide) _

mutual

/-- A value is read back, whatever is behind it. -/
theorem value_print (json : Json) (fuel : Nat) (h : (print json).length ≤ fuel)
    {rest : List Char} (hrest : Ends rest) :
    value fuel (print json ++ rest) = some (json, rest) := by
  match json with
  | null | bool true | bool false | array [] | object [] =>
    obtain ⟨fuel, rfl⟩ : ∃ k, fuel = k + 1 := ⟨fuel - 1, by simp [print] at h; omega⟩
    simp [print, value, skip, isSpace, word, List.isPrefixOf]
  | number n => exact value_number n h hrest
  | string s => exact value_quote s h rest
  | array (json :: elements) =>
    rw [print, List.length_cons, List.length_append] at h
    obtain ⟨fuel, rfl⟩ : ∃ k, fuel = k + 1 := ⟨fuel - 1, by omega⟩
    have hfirst := value_print json fuel (by omega) (ends_printElements elements rest)
    have hothers := otherElements_print elements fuel (by omega) rest
    obtain ⟨c, cs, heq, hspace, hne⟩ := head_print json (printElements elements ++ rest)
    rw [heq] at hfirst
    rw [print, List.cons_append, List.append_assoc, value, skip_cons (by decide), heq]
    simp [skip_cons hspace, hne, hfirst, hothers]
  | object ((key, json) :: members) =>
    simp only [print, List.length_cons, List.length_append] at h
    obtain ⟨fuel, rfl⟩ : ∃ k, fuel = k + 1 := ⟨fuel - 1, by omega⟩
    have hkey := memberName_quote key fuel (by omega)
      (print json ++ (printMembers members ++ rest))
    have hfirst := value_print json fuel (by omega) (ends_printMembers members rest)
    have hothers := otherMembers_print members fuel (by omega) rest
    obtain ⟨cs, heq⟩ : ∃ cs, quote key ++ ':' :: (print json ++ (printMembers members ++ rest)) =
      '"' :: cs := ⟨_, rfl⟩
    rw [heq] at hkey
    rw [print, List.cons_append, List.append_assoc, List.cons_append, List.append_assoc, value,
      skip_cons (by decide), heq]
    simp [skip_cons, isSpace, hkey, hfirst, hothers]

theorem otherElements_print (elements : List Json) (fuel : Nat)
    (h : (printElements elements).length ≤ fuel) (rest : List Char) :
    otherElements fuel (printElements elements ++ rest) = some (elements, rest) := by
  match elements with
  | [] =>
    obtain ⟨fuel, rfl⟩ : ∃ k, fuel = k + 1 := ⟨fuel - 1, by simp [printElements] at h; omega⟩
    simp [printElements, otherElements, skip, isSpace]
  | json :: elements =>
    rw [printElements, List.length_cons, List.length_append] at h
    obtain ⟨fuel, rfl⟩ : ∃ k, fuel = k + 1 := ⟨fuel - 1, by omega⟩
    have hfirst := value_print json fuel (by omega) (ends_printElements elements rest)
    have hothers := otherElements_print elements fuel (by omega) rest
    rw [printElements, List.cons_append, List.append_assoc, otherElements, skip_cons (by decide)]
    simp [hfirst, hothers]

theorem otherMembers_print (members : List (String × Json)) (fuel : Nat)
    (h : (printMembers members).length ≤ fuel) (rest : List Char) :
    otherMembers fuel (printMembers members ++ rest) = some (members, rest) := by
  match members with
  | [] =>
    obtain ⟨fuel, rfl⟩ : ∃ k, fuel = k + 1 := ⟨fuel - 1, by simp [printMembers] at h; omega⟩
    simp [printMembers, otherMembers, skip, isSpace]
  | (key, json) :: members =>
    simp only [printMembers, List.length_cons, List.length_append] at h
    obtain ⟨fuel, rfl⟩ : ∃ k, fuel = k + 1 := ⟨fuel - 1, by omega⟩
    have hkey := memberName_quote key fuel (by omega)
      (print json ++ (printMembers members ++ rest))
    have hfirst := value_print json fuel (by omega) (ends_printMembers members rest)
    have hothers := otherMembers_print members fuel (by omega) rest
    rw [printMembers, List.cons_append, List.append_assoc, List.cons_append, List.append_assoc,
      otherMembers, skip_cons (by decide)]
    simp [hkey, hfirst, hothers]

end

/-- What is written is read back. -/
theorem parse_print (json : Json) : parse (print json) = some json := by
  have hends : Ends [] := by
    intro c hc
    cases hc
  have hvalue := value_print json _ (Nat.le_succ (print json).length) hends
  rw [List.append_nil] at hvalue
  simp [parse, hvalue, skip]

end Cepheus.Infra.Json
