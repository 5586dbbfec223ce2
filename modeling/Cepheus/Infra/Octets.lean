import Mathlib.Algebra.Order.Ring.Nat
import Mathlib.Data.List.Induction

/-!
# Octet strings

Big-endian numbers of a fixed width, and buffers that are written field by field at fixed offsets,
as in Go's `binary.BigEndian`.

* `be`, `ofBe` - the octets of a number and the number of some octets, each the inverse of the other
* `put` - a field is written octet by octet; `extract_put` and `extract_put_of_disjoint` say what
  a range of the buffer holds afterwards
* `clear` - the octets at some places are set to zero
* `receive` - what a read of a datagram leaves in a buffer of a fixed size
-/

namespace Cepheus.Infra

/-- A byte slice. -/
abbrev Octets := List UInt8

/-! ## Big-endian numbers -/

/-- The `w` big-endian octets of `n`; what does not fit is dropped. -/
def be : Nat → Nat → Octets
  | 0, _ => []
  | w + 1, n => be w (n / 256) ++ [UInt8.ofNat n]

/-- The number with the given big-endian octets. -/
def ofBe (b : Octets) : Nat := b.foldl (fun n o => n * 256 + o.toNat) 0

@[simp] theorem length_be : ∀ w n, (be w n).length = w
  | 0, _ => rfl
  | w + 1, n => by simp only [be, List.length_append, length_be w, List.length_singleton]

theorem ofBe_append (b : Octets) (o : UInt8) : ofBe (b ++ [o]) = ofBe b * 256 + o.toNat := by
  simp only [ofBe, List.foldl_append, List.foldl_cons, List.foldl_nil]

theorem ofBe_lt (b : Octets) : ofBe b < 256 ^ b.length := by
  induction b using List.reverseRecOn with
  | nil => exact Nat.one_pos
  | append_singleton b o ih =>
    have ho : o.toNat < 256 := o.toNat_lt
    rw [ofBe_append, List.length_append, List.length_singleton, Nat.pow_succ]
    omega

/-- Reading back what was written. -/
theorem ofBe_be : ∀ {w n : Nat}, n < 256 ^ w → ofBe (be w n) = n
  | 0, n, h => by
    have h : n = 0 := Nat.lt_one_iff.mp h
    subst h
    rfl
  | w + 1, n, h => by
    have hhigh : n / 256 < 256 ^ w := by
      rw [Nat.pow_succ] at h
      omega
    rw [be, ofBe_append, ofBe_be hhigh, UInt8.toNat_ofNat']
    show n / 256 * 256 + n % 256 = n
    omega

/-- Writing back what was read. -/
theorem be_ofBe (b : Octets) : be b.length (ofBe b) = b := by
  induction b using List.reverseRecOn with
  | nil => rfl
  | append_singleton b o ih =>
    have ho : o.toNat < 256 := o.toNat_lt
    have hhigh : (ofBe b * 256 + o.toNat) / 256 = ofBe b := by omega
    have hlow : UInt8.ofNat (ofBe b * 256 + o.toNat) = o := by
      apply UInt8.toNat_inj.mp
      rw [UInt8.toNat_ofNat']
      omega
    rw [List.length_append, List.length_singleton, be, ofBe_append, hhigh, hlow, ih]

/-! ## Ranges of a buffer -/

theorem getElem?_extract (b : Octets) (i j n : Nat) :
    (b.extract i j)[n]? = if n < j - i then b[i + n]? else none := by
  rw [List.extract_eq_take_drop, List.getElem?_take, List.getElem?_drop]

theorem length_extract {b : Octets} {i j : Nat} (h : j ≤ b.length) :
    (b.extract i j).length = j - i := by
  rw [List.extract_eq_take_drop, List.length_take, List.length_drop]
  omega

/-- The octet at which a range starts. -/
theorem getElem?_of_extract {b rest : Octets} {i j : Nat} {o : UInt8}
    (h : b.extract i j = o :: rest) : b[i]? = some o := by
  have hn := getElem?_extract b i j 0
  rw [h, List.getElem?_cons_zero, Nat.add_zero] at hn
  by_cases hj : 0 < j - i
  · rw [hn, if_pos hj]
  · rw [if_neg hj] at hn
    exact absurd hn (Option.some_ne_none o)

/-- Adjacent ranges together are a range. -/
theorem extract_append_extract (b : Octets) {i j k : Nat} (hij : i ≤ j) (hjk : j ≤ k)
    (hk : k ≤ b.length) : b.extract i j ++ b.extract j k = b.extract i k := by
  apply List.ext_getElem?
  intro n
  rw [List.getElem?_append, length_extract (Nat.le_trans hjk hk)]
  simp only [getElem?_extract]
  by_cases h : n < j - i
  · rw [if_pos h, if_pos h, if_pos (by omega)]
  · rw [if_neg h, show j + (n - (j - i)) = i + n by omega]
    by_cases h' : n < k - i
    · rw [if_pos (by omega), if_pos h']
    · rw [if_neg (by omega), if_neg h']

/-- Four adjacent fields together are a range. -/
theorem extract_append_fields (b : Octets) {i j k l m : Nat} (hij : i ≤ j) (hjk : j ≤ k)
    (hkl : k ≤ l) (hlm : l ≤ m) (hm : m ≤ b.length) :
    b.extract i j ++ b.extract j k ++ b.extract k l ++ b.extract l m = b.extract i m := by
  rw [extract_append_extract b hij hjk (by omega),
    extract_append_extract b (by omega) hkl (by omega),
    extract_append_extract b (by omega) hlm hm]

/-- Two buffers that agree up to some place have the same ranges before it. -/
theorem extract_congr {a b : Octets} {i j : Nat} (h : ∀ n < j, a[n]? = b[n]?) :
    a.extract i j = b.extract i j := by
  apply List.ext_getElem?
  intro n
  rw [getElem?_extract, getElem?_extract]
  by_cases hn : n < j - i
  · rw [if_pos hn, if_pos hn, h _ (by omega)]
  · rw [if_neg hn, if_neg hn]

/-- Two buffers with the same range agree at every place of it. -/
theorem getElem?_congr_of_extract {a b : Octets} {i j n : Nat} (h : a.extract i j = b.extract i j)
    (hi : i ≤ n) (hj : n < j) : a[n]? = b[n]? := by
  have hn := congrArg (fun r => r[n - i]?) h
  simp only [getElem?_extract] at hn
  rwa [if_pos (by omega), if_pos (by omega), show i + (n - i) = n by omega] at hn

theorem extract_append_left {a : Octets} (b : Octets) {i j : Nat} (h : j ≤ a.length) :
    (a ++ b).extract i j = a.extract i j :=
  extract_congr fun _ hn => List.getElem?_append_left (Nat.lt_of_lt_of_le hn h)

/-! ## Writing fields -/

/-- Write `field` into the buffer from offset `i` on, octet by octet. -/
def put (b : Octets) (i : Nat) : Octets → Octets
  | [] => b
  | o :: field => put (b.set i o) (i + 1) field

@[simp] theorem length_put : ∀ (b : Octets) (i : Nat) (field : Octets),
    (put b i field).length = b.length
  | _, _, [] => rfl
  | b, i, o :: field => by rw [put, length_put, List.length_set]

/-- Outside the field nothing changes. -/
theorem getElem?_put_of_disjoint : ∀ {b : Octets} {i n : Nat} {field : Octets},
    n < i ∨ i + field.length ≤ n → (put b i field)[n]? = b[n]?
  | _, _, _, [], _ => rfl
  | b, i, n, o :: field, h => by
    rw [List.length_cons] at h
    rw [put, getElem?_put_of_disjoint (by omega), List.getElem?_set_ne (by omega)]

theorem getElem?_put : ∀ {b : Octets} {i n : Nat} {field : Octets},
    i + field.length ≤ b.length → n < field.length → (put b i field)[i + n]? = field[n]?
  | b, i, 0, o :: field, h, _ => by
    rw [List.length_cons] at h
    rw [put, getElem?_put_of_disjoint (Or.inl (by omega)), Nat.add_zero,
      List.getElem?_set_self (by omega), List.getElem?_cons_zero]
  | b, i, n + 1, o :: field, h, hn => by
    rw [List.length_cons] at h hn
    have hlen : i + 1 + field.length ≤ (b.set i o).length := by
      rw [List.length_set]
      omega
    rw [put, show i + (n + 1) = i + 1 + n by omega, getElem?_put hlen (by omega),
      List.getElem?_cons_succ]

/-- The field's own range holds the field. -/
theorem extract_put {b field : Octets} {i j : Nat} (hj : j = i + field.length)
    (h : j ≤ b.length) : (put b i field).extract i j = field := by
  subst hj
  apply List.ext_getElem?
  intro n
  rw [getElem?_extract, Nat.add_sub_cancel_left]
  by_cases hn : n < field.length
  · rw [if_pos hn, getElem?_put h hn]
  · rw [if_neg hn, List.getElem?_eq_none (by omega)]

/-- The ranges that do not meet the field are as before. -/
theorem extract_put_of_disjoint {b field : Octets} {i j k : Nat}
    (h : k ≤ i ∨ i + field.length ≤ j) : (put b i field).extract j k = b.extract j k := by
  apply List.ext_getElem?
  intro n
  rw [getElem?_extract, getElem?_extract]
  by_cases hn : n < k - j
  · rw [if_pos hn, if_pos hn, getElem?_put_of_disjoint (by omega)]
  · rw [if_neg hn, if_neg hn]

/-! ## Clearing octets -/

/-- The buffer with a zero at every place that meets `p`. -/
def clear (p : Nat → Bool) (b : Octets) : Octets := b.mapIdx fun n o => if p n then 0 else o

theorem getElem?_clear (p : Nat → Bool) (b : Octets) (n : Nat) :
    (clear p b)[n]? = b[n]?.map fun o => if p n then 0 else o := by
  rw [clear, List.getElem?_mapIdx]

theorem getElem?_clear_of_not {p : Nat → Bool} {n : Nat} (b : Octets) (h : p n = false) :
    (clear p b)[n]? = b[n]? := by
  rw [getElem?_clear, h]
  exact Option.map_id'

theorem getElem?_clear_of {p : Nat → Bool} {b : Octets} {n : Nat} (h : p n = true)
    (hn : n < b.length) : (clear p b)[n]? = some 0 := by
  rw [getElem?_clear, h, List.getElem?_eq_getElem hn]
  rfl

/-! ## Go's accessors -/

/-- `binary.BigEndian.PutUint32(b[i:i+4], v)`. -/
def putUint32 (b : Octets) (i : Nat) (v : UInt32) : Octets := put b i (be 4 v.toNat)

/-- `binary.BigEndian.PutUint16(b[i:i+2], v)`. -/
def putUint16 (b : Octets) (i : Nat) (v : UInt16) : Octets := put b i (be 2 v.toNat)

/-- `binary.BigEndian.Uint32(b)`, of four octets. -/
def uint32 (b : Octets) : UInt32 := UInt32.ofNat (ofBe b)

/-- `binary.BigEndian.Uint16(b)`, of two octets. -/
def uint16 (b : Octets) : UInt16 := UInt16.ofNat (ofBe b)

@[simp] theorem length_putUint32 (b : Octets) (i : Nat) (v : UInt32) :
    (putUint32 b i v).length = b.length := length_put ..

@[simp] theorem length_putUint16 (b : Octets) (i : Nat) (v : UInt16) :
    (putUint16 b i v).length = b.length := length_put ..

section

variable {b : Octets} {i j k : Nat}

theorem extract_putUint32 {v : UInt32} (hj : j = i + 4) (h : j ≤ b.length) :
    (putUint32 b i v).extract i j = be 4 v.toNat :=
  extract_put (by rwa [length_be]) h

theorem extract_putUint16 {v : UInt16} (hj : j = i + 2) (h : j ≤ b.length) :
    (putUint16 b i v).extract i j = be 2 v.toNat :=
  extract_put (by rwa [length_be]) h

theorem extract_putUint32_of_disjoint {v : UInt32} (h : k ≤ i ∨ i + 4 ≤ j) :
    (putUint32 b i v).extract j k = b.extract j k :=
  extract_put_of_disjoint (by rwa [length_be])

theorem extract_putUint16_of_disjoint {v : UInt16} (h : k ≤ i ∨ i + 2 ≤ j) :
    (putUint16 b i v).extract j k = b.extract j k :=
  extract_put_of_disjoint (by rwa [length_be])

end

theorem uint32_be (v : UInt32) : uint32 (be 4 v.toNat) = v := by
  rw [uint32, ofBe_be v.toNat_lt, UInt32.ofNat_toNat]

theorem uint16_be (v : UInt16) : uint16 (be 2 v.toNat) = v := by
  rw [uint16, ofBe_be v.toNat_lt, UInt16.ofNat_toNat]

theorem be_uint32 {b : Octets} (h : b.length = 4) : be 4 (uint32 b).toNat = b := by
  have hlt : ofBe b < 2 ^ 32 := by
    have hb := ofBe_lt b
    rwa [h] at hb
  rw [uint32, UInt32.toNat_ofNat', Nat.mod_eq_of_lt hlt, ← h, be_ofBe]

theorem be_uint16 {b : Octets} (h : b.length = 2) : be 2 (uint16 b).toNat = b := by
  have hlt : ofBe b < 2 ^ 16 := by
    have hb := ofBe_lt b
    rwa [h] at hb
  rw [uint16, UInt16.toNat_ofNat', Nat.mod_eq_of_lt hlt, ← h, be_ofBe]

/-! ## Reading a datagram -/

/--
A read into a fresh buffer of `size` octets: the buffer, and the number of octets read. A longer
datagram is cut off, a shorter one leaves zeros behind it.
-/
def receive (size : Nat) (datagram : Octets) : Octets × Nat :=
  (datagram.take size ++ List.replicate (size - datagram.length) 0, min datagram.length size)

@[simp] theorem length_receive (size : Nat) (datagram : Octets) :
    (receive size datagram).1.length = size := by
  rw [receive, List.length_append, List.length_take, List.length_replicate]
  omega

/-- The octets of the datagram that fit stand at their places in the buffer. -/
theorem extract_receive {size : Nat} {datagram : Octets} {i j : Nat} (hsize : j ≤ size)
    (hlen : j ≤ datagram.length) :
    (receive size datagram).1.extract i j = datagram.extract i j := by
  apply extract_congr
  intro n hn
  rw [receive, List.getElem?_append_left (by rw [List.length_take]; omega),
    List.getElem?_take_of_lt (by omega)]

theorem receive_of_le {size : Nat} {datagram : Octets} (h : datagram.length ≤ size) :
    receive size datagram =
      (datagram ++ List.replicate (size - datagram.length) 0, datagram.length) := by
  rw [receive, List.take_of_length_le h, Nat.min_eq_left h]

end Cepheus.Infra
