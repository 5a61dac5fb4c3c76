import Mathlib.Data.List.Basic
import Mathlib.Data.Nat.Notation

/-!
# Octets and the offsets that are read

Memory is a function from offsets to octets. A `Reads α` is a value together with the offsets of
the octets that were looked at to compute it, in their order: programs over memory are written in
this monad, and `Reads.Within n` says that none of them has looked at the offset `n` or behind it.

## Main definitions

* `Octets.le16`, `Octets.be16`, `Octets.le32`, `Octets.be32`, `Octets.be48`: words in memory.
* `Reads`, `Reads.Within`, `Octets.field`.
-/

/-- Memory, octet by octet. -/
abbrev Octets := ℕ → BitVec 8

namespace Octets

variable (m : Octets) (o n : ℕ)

/-- The 16-bit word at an offset, least significant octet first. -/
def le16 : BitVec 16 :=
  m (o + 1) ++ m o

/-- The 16-bit word at an offset, most significant octet first. -/
def be16 : BitVec 16 :=
  m o ++ m (o + 1)

/-- The 32-bit word at an offset, least significant octet first. -/
def le32 : BitVec 32 :=
  m (o + 3) ++ m (o + 2) ++ m (o + 1) ++ m o

/-- The 32-bit word at an offset, most significant octet first. -/
def be32 : BitVec 32 :=
  m o ++ m (o + 1) ++ m (o + 2) ++ m (o + 3)

/-- The 48-bit word at an offset, most significant octet first. -/
def be48 : BitVec 48 :=
  m o ++ m (o + 1) ++ m (o + 2) ++ m (o + 3) ++ m (o + 4) ++ m (o + 5)

/-- The `n` octets from an offset on. -/
def block : List (BitVec 8) :=
  (List.range' o n).map m

/-- Memory after the octets `bs` were written at an offset. -/
def write (bs : List (BitVec 8)) : Octets := fun p =>
  if o ≤ p then bs[p - o]?.getD (m p) else m p

/-- The octets of a word, least significant first. -/
def ofLe16 (w : BitVec 16) : List (BitVec 8) :=
  [w.extractLsb' 0 8, w.extractLsb' 8 8]

/-- The octets of a 16-bit word, most significant first. -/
def ofBe16 (w : BitVec 16) : List (BitVec 8) :=
  [w.extractLsb' 8 8, w.extractLsb' 0 8]

/-- The octets of a 32-bit word, least significant first. -/
def ofLe32 (w : BitVec 32) : List (BitVec 8) :=
  [w.extractLsb' 0 8, w.extractLsb' 8 8, w.extractLsb' 16 8, w.extractLsb' 24 8]

/-- The octets of a word, most significant first. -/
def ofBe32 (w : BitVec 32) : List (BitVec 8) :=
  [w.extractLsb' 24 8, w.extractLsb' 16 8, w.extractLsb' 8 8, w.extractLsb' 0 8]

theorem ofBe32_append (a b c d : BitVec 8) : ofBe32 (a ++ b ++ c ++ d) = [a, b, c, d] := by
  simp only [ofBe32, List.cons.injEq, and_true]
  refine ⟨?_, ?_, ?_, ?_⟩ <;>
  · ext i hi
    grind

theorem ofBe32_be32 : ofBe32 (m.be32 o) = [m o, m (o + 1), m (o + 2), m (o + 3)] :=
  ofBe32_append _ _ _ _

variable {m o} {p : ℕ} {bs : List (BitVec 8)}

/-- A write changes nothing outside of what it writes. -/
theorem write_of_notMem (h : p < o ∨ o + bs.length ≤ p) : m.write o bs p = m p := by
  unfold write
  split
  · rw [List.getElem?_eq_none (by omega), Option.getD_none]
  · rfl

theorem write_congr {m' : Octets} (h : m p = m' p) : m.write o bs p = m'.write o bs p := by
  simp only [write, h]

section

variable {m' : Octets} {o' : ℕ}

/-- Memory after a part of memory was copied. -/
theorem write_block {i n : ℕ} (h : i < n) : m.write o (m'.block o' n) (o + i) = m' (o' + i) := by
  simp only [write, block, Nat.le_add_right, ↓reduceIte, Nat.add_sub_cancel_left,
    List.getElem?_map, List.getElem?_range' h, Option.map_some, Option.getD_some, Nat.one_mul]

/-- Equal octets are equal words. -/
theorem be16_congr (h : ∀ i < 2, m' (o' + i) = m (o + i)) : m'.be16 o' = m.be16 o :=
  congrArg₂ (· ++ ·) (h 0 (by decide)) (h 1 (by decide))

theorem le16_congr (h : ∀ i < 2, m' (o' + i) = m (o + i)) : m'.le16 o' = m.le16 o :=
  congrArg₂ (· ++ ·) (h 1 (by decide)) (h 0 (by decide))

theorem be32_congr (h : ∀ i < 4, m' (o' + i) = m (o + i)) : m'.be32 o' = m.be32 o := by
  have h₀ : m' o' = m o := h 0 (by decide)
  rw [be32, be32, h₀, h 1 (by decide), h 2 (by decide), h 3 (by decide)]

theorem le32_congr (h : ∀ i < 4, m' (o' + i) = m (o + i)) : m'.le32 o' = m.le32 o := by
  have h₀ : m' o' = m o := h 0 (by decide)
  rw [le32, le32, h₀, h 1 (by decide), h 2 (by decide), h 3 (by decide)]

theorem be48_congr (h : ∀ i < 6, m' (o' + i) = m (o + i)) : m'.be48 o' = m.be48 o := by
  have h₀ : m' o' = m o := h 0 (by decide)
  rw [be48, be48, h₀, h 1 (by decide), h 2 (by decide), h 3 (by decide), h 4 (by decide),
    h 5 (by decide)]

end

theorem ofBe32_not (w : BitVec 32) : ofBe32 (~~~w) = (ofBe32 w).map (~~~ ·) := by
  simp only [ofBe32, List.map_cons, List.map_nil, List.cons.injEq, and_true]
  refine ⟨?_, ?_, ?_, ?_⟩ <;>
  · ext i hi
    simp
    omega

/-- Words outside of what is written. -/
theorem be32_write_of_notMem (h : p + 4 ≤ o ∨ o + bs.length ≤ p) :
    (m.write o bs).be32 p = m.be32 p :=
  be32_congr fun i hi => write_of_notMem (by omega)

theorem le32_write_of_notMem (h : p + 4 ≤ o ∨ o + bs.length ≤ p) :
    (m.write o bs).le32 p = m.le32 p :=
  le32_congr fun i hi => write_of_notMem (by omega)

theorem le16_write_of_notMem (h : p + 2 ≤ o ∨ o + bs.length ≤ p) :
    (m.write o bs).le16 p = m.le16 p :=
  le16_congr fun i hi => write_of_notMem (by omega)

theorem be32_write (w : BitVec 32) : (m.write o (ofBe32 w)).be32 o = w := by
  simp only [be32, write, ofBe32, Nat.le_refl, Nat.le_add_right, Nat.sub_self, ↓reduceIte,
    Nat.add_sub_cancel_left]
  ext i hi
  grind

theorem le32_write (w : BitVec 32) : (m.write o (ofLe32 w)).le32 o = w := by
  simp only [le32, write, ofLe32, Nat.le_refl, Nat.le_add_right, Nat.sub_self, ↓reduceIte,
    Nat.add_sub_cancel_left]
  ext i hi
  grind

theorem le16_write (w : BitVec 16) : (m.write o (ofLe16 w)).le16 o = w := by
  simp only [le16, write, ofLe16, Nat.le_refl, Nat.le_add_right, Nat.sub_self, ↓reduceIte,
    Nat.add_sub_cancel_left]
  ext i hi
  grind

theorem be16_of_octets {w : BitVec 16} (h₀ : m o = w.extractLsb' 8 8)
    (h₁ : m (o + 1) = w.extractLsb' 0 8) : m.be16 o = w := by
  rw [be16, h₀, h₁]
  ext i hi
  grind

/-- Writing the complement of a word changes each of its octets. -/
theorem write_not_ne {i : ℕ} (hi : i < 4) :
    m.write o (ofBe32 (~~~m.be32 o)) (o + i) ≠ m (o + i) := by
  rw [ofBe32_not, ofBe32_be32]
  match i, hi with
  | 0, _ => simp [write]
  | 1, _ => simp [write]
  | 2, _ => simp [write]
  | 3, _ => simp [write]

end Octets

/-- A value and the offsets that were read to compute it. -/
structure Reads (α : Type) where
  val : α
  offsets : List ℕ

namespace Reads

variable {α β : Type} {n : ℕ}

instance : Monad Reads where
  pure a := ⟨a, []⟩
  bind r f := ⟨(f r.val).val, r.offsets ++ (f r.val).offsets⟩

@[simp] theorem val_pure (a : α) : (pure a : Reads α).val = a := rfl

@[simp] theorem val_bind (r : Reads α) (f : α → Reads β) : (r >>= f).val = (f r.val).val := rfl

@[simp] theorem val_map (g : α → β) (r : Reads α) : (g <$> r).val = g r.val := rfl

/-- The test may have been decided on a value that was read, so its instance is not searched for. -/
@[simp] theorem val_ite (c : Prop) {_ : Decidable c} (r r' : Reads α) :
    (if c then r else r').val = if c then r.val else r'.val :=
  apply_ite val c r r'

/-- Every offset that was read is below `n`. -/
def Within (n : ℕ) (r : Reads α) : Prop :=
  ∀ o ∈ r.offsets, o < n

@[simp] theorem within_pure (a : α) : (pure a : Reads α).Within n := by
  simp [Within, pure]

@[simp] theorem within_bind {r : Reads α} {f : α → Reads β} :
    (r >>= f).Within n ↔ r.Within n ∧ (f r.val).Within n := by
  simp only [Within, bind, List.mem_append, or_imp, forall_and]

@[simp] theorem within_map {g : α → β} {r : Reads α} : (g <$> r).Within n ↔ r.Within n := by
  simp [Within, Functor.map]

@[simp] theorem within_ite {c : Prop} [Decidable c] {r r' : Reads α} :
    (if c then r else r').Within n ↔ if c then r.Within n else r'.Within n := by
  split <;> rfl

end Reads

namespace Octets

/-- A value that is computed from the `n` octets at the offset `o`. -/
def field {α : Type} (o n : ℕ) (a : α) : Reads α :=
  ⟨a, List.range' o n⟩

variable {α : Type} {o n k : ℕ} {a : α}

@[simp] theorem field_val : (field o n a).val = a := rfl

/-- A field of at least one octet is read below a bound if it ends there. -/
@[simp] theorem field_within (hn : 0 < n) : (field o n a).Within k ↔ o + n ≤ k := by
  simp only [Reads.Within, field, List.mem_range'_1]
  constructor
  · intro h
    have := h (o + n - 1) (by omega)
    omega
  · intro h p hp
    omega

variable (m : Octets) (o n)

/-- The read of an octet. -/
@[simp] def readOctet : Reads (BitVec 8) :=
  field o 1 (m o)

/-- The read of a 16-bit word, least significant octet first. -/
@[simp] def readLe16 : Reads (BitVec 16) :=
  field o 2 (m.le16 o)

/-- The read of a 16-bit word, most significant octet first. -/
@[simp] def readBe16 : Reads (BitVec 16) :=
  field o 2 (m.be16 o)

/-- The read of a 32-bit word, least significant octet first. -/
@[simp] def readLe32 : Reads (BitVec 32) :=
  field o 4 (m.le32 o)

/-- The read of a 48-bit word, most significant octet first. -/
@[simp] def readBe48 : Reads (BitVec 48) :=
  field o 6 (m.be48 o)

/-- The read of `n` octets. -/
@[simp] def readBlock : Reads (List (BitVec 8)) :=
  field o n (m.block o n)

end Octets
