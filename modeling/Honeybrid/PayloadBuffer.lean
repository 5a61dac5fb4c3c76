import Honeybrid.BackupModules

/-!
# The buffer of a payload

`mod_hash` copies all octets of a payload but the last into a buffer, and ends the buffer with a
zero behind the place of the last octet, which is not written. When it finds addresses in the
buffer, as a string of C, it takes the text with the addresses replaced instead. Then it prints up
to 64 octets of the string and digests as many octets as the packet has, less two.

The replacement is that of the library. Of it only this is used: the text up to the first address is
kept, and in its place stands a text that begins with another character.

## Main definitions

* `Replaces`: what is used of the replacement.
* `Payload.initialised`: the octets at the start of the buffer that have been written.
* `Payload.StaysInside`: the lengths do not exceed them, and the digested octets are those of the
  packet.
* `Payload.Fits`: the payloads for which this is so.

## Main results

* `staysInside_iff`: a payload stays inside its buffer exactly if it fits.
-/

namespace Honeybrid

/-- The text before the first address is kept. The address, of at least seven characters, begins
with a digit, and `<0.0.0.0>` takes its place. -/
def Replaces (replace : List (BitVec 8) → Option (List (BitVec 8))) : Prop :=
  ∀ x s, replace x = some s → ∃ before d rest after, isDigit d = true ∧ 6 ≤ rest.length ∧
    x = before ++ d :: rest ∧ s = before ++ "<0.0.0.0>".toList.map octet ++ after

namespace Payload

variable (replace : List (BitVec 8) → Option (List (BitVec 8))) (p : Payload)

/-- The octets of the payload that are copied. -/
def copied : List (BitVec 8) :=
  p.octets.take (p.data - 1).toNat

/-- The text in which addresses are looked for, when the octet that is not written holds `u`. -/
def text (u : BitVec 8) : List (BitVec 8) :=
  cString (p.copied ++ [u])

/-- The number of octets at the start of the buffer that have been written, when it is printed and
digested. -/
def initialised (u : BitVec 8) : ℕ :=
  match replace (cString (p.buffer u)) with
  | some s => s.length + 1
  | none => (p.data - 1).toNat

/-- The end of the string is written inside the buffer, no length exceeds the number of octets that
have been written, and the octets that are digested depend on the packet only. -/
structure StaysInside : Prop where
  room : p.data.toNat < (p.data + 1).toNat
  copies : (p.data - 1).toNat ≤ p.octets.length
  digests : ∀ u, (p.data - 2).toNat ≤ p.initialised replace u
  prints : ∀ u, p.asciiLen replace u ≤ p.initialised replace u
  equal : ∀ u u' behind behind', p.digested replace u behind = p.digested replace u' behind'

/-- The payload has at least two octets. Whatever the octet is that is not written, no address is
found, and the octets that are copied contain a zero or are at least 64; or addresses are found, and
the text without them agrees on as many octets as are digested. -/
structure Fits : Prop where
  two : 2 ≤ p.data.toNat
  room : p.data.toNat + 1 < 2 ^ 32
  text : ((∀ u, replace (p.text u) = none) ∧ (0 ∈ p.copied ∨ 65 ≤ p.data.toNat)) ∨
    ∃ d, d.length = p.data.toNat - 2 ∧ ∀ u, ∃ s, replace (p.text u) = some s ∧ d <+: s ++ [0]

end Payload

section

variable {replace : List (BitVec 8) → Option (List (BitVec 8))} {p : Payload} {u : BitVec 8}
  {s behind : List (BitVec 8)}

theorem cString_append_zero (x y : List (BitVec 8)) : cString (x ++ 0 :: y) = cString x := by
  induction x with
  | nil => rfl
  | cons b x ih =>
    rw [cString, List.cons_append, List.takeWhile_cons, cString, List.takeWhile_cons]
    by_cases hb : b = 0
    · simp [hb]
    · simp only [hb, ne_eq, not_false_eq_true, decide_true, if_true]
      exact congrArg (b :: ·) ih

theorem cString_append_of_mem {x : List (BitVec 8)} (y : List (BitVec 8)) (h : 0 ∈ x) :
    cString (x ++ y) = cString x := by
  obtain ⟨a, b, rfl⟩ := List.append_of_mem h
  rw [List.append_assoc, List.cons_append, cString_append_zero, cString_append_zero]

theorem cString_eq_self {x : List (BitVec 8)} (h : 0 ∉ x) : cString x = x := by
  rw [cString, List.takeWhile_eq_self_iff]
  intro b hb
  exact decide_eq_true fun hzero => h (hzero ▸ hb)

namespace Payload

theorem buffer_eq (p : Payload) (u : BitVec 8) : p.buffer u = p.copied ++ [u, 0] :=
  rfl

theorem cString_buffer (p : Payload) (u : BitVec 8) : cString (p.buffer u) = p.text u := by
  rw [buffer_eq, text, ← cString_append_zero (p.copied ++ [u]) [], List.append_assoc]
  rfl

theorem toNat_pred (hdata : p.data ≠ 0) : (p.data - 1).toNat = p.data.toNat - 1 := by
  rw [BitVec.toNat_sub]
  bv_omega

theorem toNat_pred_two (h : 2 ≤ p.data.toNat) : (p.data - 2).toNat = p.data.toNat - 2 := by
  rw [BitVec.toNat_sub]
  bv_omega

theorem length_copied (hlen : p.octets.length = p.data.toNat) (hdata : p.data ≠ 0) :
    p.copied.length = p.data.toNat - 1 := by
  rw [copied, List.length_take, toNat_pred hdata]
  omega

theorem length_text_le (p : Payload) (u : BitVec 8) : (p.text u).length ≤ p.copied.length + 1 := by
  have hstart : p.text u <+: p.copied ++ [u] := List.takeWhile_prefix _
  simpa using hstart.length_le

/-! ### The buffer with and without addresses -/

theorem initialised_none (h : replace (p.text u) = none) :
    p.initialised replace u = (p.data - 1).toNat := by
  rw [initialised, cString_buffer, h]

theorem initialised_some (h : replace (p.text u) = some s) :
    p.initialised replace u = s.length + 1 := by
  rw [initialised, cString_buffer, h]

theorem asciiLen_none (h : replace (p.text u) = none) :
    p.asciiLen replace u = min 64 (p.text u).length := by
  rw [asciiLen, normalised, cString_buffer, h, cString_buffer]

theorem asciiLen_some_le (h : replace (p.text u) = some s) :
    p.asciiLen replace u ≤ s.length + 1 := by
  rw [asciiLen, normalised, cString_buffer, h]
  have hstart : cString (s ++ [0]) <+: s ++ [0] := List.takeWhile_prefix _
  exact (min_le_right _ _).trans (by simpa using hstart.length_le)

theorem digested_none (hle : (p.data - 2).toNat ≤ p.copied.length) (h : replace (p.text u) = none) :
    p.digested replace u behind = p.copied.take (p.data - 2).toNat := by
  rw [digested, normalised, cString_buffer, h, buffer_eq, List.append_assoc,
    List.take_append_of_le_length hle]

theorem digested_some (h : replace (p.text u) = some s) :
    p.digested replace u behind = (s ++ [0] ++ behind).take (p.data - 2).toNat := by
  rw [digested, normalised, cString_buffer, h]

/-- An address begins in the octets that are digested. -/
theorem exists_address (hreplace : Replaces replace) (h : replace (p.text u) = some s) :
    ∃ i, i + 6 ≤ p.copied.length ∧ p.copied[i]? ≠ (s ++ [0])[i]? := by
  obtain ⟨before, d, rest, after, hd, hrest, htext, rfl⟩ := hreplace _ _ h
  have hlen := length_text_le p u
  rw [htext, List.length_append, List.length_cons] at hlen
  have hi : before.length + 6 ≤ p.copied.length := by omega
  refine ⟨before.length, hi, ?_⟩
  have hstart : before ++ d :: rest <+: p.copied ++ [u] := htext ▸ List.takeWhile_prefix _
  have hcopied : p.copied[before.length]? = some d := by
    obtain ⟨last, hlast⟩ := hstart
    have hleft : (p.copied ++ [u])[before.length]? = p.copied[before.length]? :=
      List.getElem?_append_left (by omega)
    rw [← hleft, ← hlast, List.append_assoc, List.getElem?_append_right (le_refl _)]
    simp
  have hmark : (before ++ "<0.0.0.0>".toList.map octet ++ after ++ [0])[before.length]? =
      some (octet '<') := by
    rw [List.append_assoc, List.append_assoc, List.getElem?_append_right (le_refl _)]
    simp
  rw [hcopied, hmark]
  intro heq
  cases heq
  exact absurd hd (by decide)

variable (hlen : p.octets.length = p.data.toNat) (hdata : p.data ≠ 0)

include hlen hdata in
/-- A single octet is not enough: `data - 2` wraps around. -/
theorem StaysInside.two (hreplace : Replaces replace) (h : p.StaysInside replace) :
    2 ≤ p.data.toNat := by
  by_contra hlt
  have hone : p.data = 1 := by bv_omega
  have hcopied := length_copied hlen hdata
  have hdigests := h.digests 0
  rw [hone] at hdigests
  cases hr : replace (p.text 0) with
  | none =>
    rw [initialised_none hr, hone] at hdigests
    revert hdigests
    decide
  | some s =>
    obtain ⟨i, hi, -⟩ := exists_address hreplace hr
    omega

include hlen hdata in
/-- An address that is found for one octet behind the copy and not for another would show in the
octets that are digested. -/
theorem StaysInside.not_found (hreplace : Replaces replace) (h : p.StaysInside replace)
    {u₀ : BitVec 8} (hu₀ : replace (p.text u₀) = none) : ∀ u, replace (p.text u) = none := by
  have hcopied := length_copied hlen hdata
  have hpred₂ := toNat_pred_two (h.two hlen hdata hreplace)
  intro u
  by_contra hu
  obtain ⟨s, hs⟩ := Option.ne_none_iff_exists'.1 hu
  obtain ⟨i, hi, hne⟩ := exists_address hreplace hs
  have hequal := h.equal u₀ u [] []
  rw [digested_none (by omega) hu₀, digested_some hs, List.append_nil] at hequal
  have hat := congrArg (·[i]?) hequal
  simp only [List.getElem?_take, show i < (p.data - 2).toNat by omega, if_true] at hat
  exact hne hat

include hlen hdata in
/-- A short string that has no zero is printed with the octet that is not written. -/
theorem StaysInside.zero_or_long (h : p.StaysInside replace)
    (hnone : replace (p.text 1) = none) : 0 ∈ p.copied ∨ 65 ≤ p.data.toNat := by
  by_contra hshort
  obtain ⟨hzero, hlt⟩ := not_or.1 hshort
  have hpos : 0 < p.data.toNat := by bv_omega
  have hprints := h.prints 1
  have htext : p.text 1 = p.copied ++ [1] := cString_eq_self (by simpa using hzero)
  rw [asciiLen_none hnone, initialised_none hnone, toNat_pred hdata, htext, List.length_append,
    length_copied hlen hdata, List.length_singleton] at hprints
  omega

include hlen hdata in
theorem StaysInside.fits (hreplace : Replaces replace) (h : p.StaysInside replace) :
    p.Fits replace := by
  have htwo := h.two hlen hdata hreplace
  have hpred₂ := toNat_pred_two htwo
  have hroom := h.room
  refine ⟨htwo, by bv_omega, ?_⟩
  by_cases hsome : ∃ u₀, replace (p.text u₀) = none
  · obtain ⟨u₀, hu₀⟩ := hsome
    have hnone := h.not_found hlen hdata hreplace hu₀
    exact .inl ⟨hnone, h.zero_or_long hlen hdata (hnone 1)⟩
  · have hall : ∀ u, ∃ s, replace (p.text u) = some s := fun u =>
      Option.ne_none_iff_exists'.1 fun hu => hsome ⟨u, hu⟩
    obtain ⟨s₀, hs₀⟩ := hall 0
    have hdigests := h.digests 0
    rw [initialised_some hs₀, hpred₂] at hdigests
    refine .inr ⟨(s₀ ++ [0]).take (p.data.toNat - 2), ?_, fun u => ?_⟩
    · rw [List.length_take, List.length_append, List.length_singleton]
      omega
    · obtain ⟨s, hs⟩ := hall u
      have hequal := h.equal 0 u [] []
      rw [digested_some hs₀, digested_some hs, List.append_nil, List.append_nil, hpred₂] at hequal
      exact ⟨s, hs, hequal ▸ List.take_prefix _ _⟩

include hlen hdata in
theorem Fits.staysInside (h : p.Fits replace) : p.StaysInside replace := by
  have htwo := h.two
  have hroom := h.room
  have hcopied := length_copied hlen hdata
  have hpred := toNat_pred hdata
  have hpred₂ := toNat_pred_two htwo
  have hroom' : p.data.toNat < (p.data + 1).toNat := by bv_omega
  obtain ⟨hnone, hshort⟩ | ⟨d, hd, hsome⟩ := h.text
  · refine ⟨hroom', by omega, fun u => ?_, fun u => ?_, fun u u' behind behind' => ?_⟩
    · rw [initialised_none (hnone u)]
      omega
    · rw [initialised_none (hnone u), asciiLen_none (hnone u), hpred]
      obtain hzero | hlong := hshort
      · have htext : p.text u <+: p.copied := by
          rw [Payload.text, cString_append_of_mem _ hzero]
          exact List.takeWhile_prefix _
        exact (min_le_right _ _).trans (htext.length_le.trans hcopied.le)
      · exact (min_le_left _ _).trans (by omega)
    · rw [digested_none (by omega) (hnone u), digested_none (by omega) (hnone u')]
  · have hdigested : ∀ u behind, p.digested replace u behind = d := by
      intro u behind
      obtain ⟨s, hs, hstart⟩ := hsome u
      rw [digested_some hs, hpred₂, ← hd]
      exact (List.prefix_iff_eq_take.1 (hstart.trans (List.prefix_append _ behind))).symm
    refine ⟨hroom', by omega, fun u => ?_, fun u => ?_, fun u u' behind behind' => ?_⟩
    · obtain ⟨s, hs, hstart⟩ := hsome u
      rw [initialised_some hs, hpred₂, ← hd]
      simpa using hstart.length_le
    · obtain ⟨s, hs, -⟩ := hsome u
      rw [initialised_some hs]
      exact asciiLen_some_le hs
    · rw [hdigested, hdigested]

end Payload

end

/-- **The buffer.** `mod_hash` stays inside the buffer of a payload, and digests the same octets of
equal packets, exactly if the payload fits. -/
theorem staysInside_iff {replace : List (BitVec 8) → Option (List (BitVec 8))}
    (hreplace : Replaces replace) {p : Payload} (hlen : p.octets.length = p.data.toNat)
    (hdata : p.data ≠ 0) : p.StaysInside replace ↔ p.Fits replace :=
  ⟨fun h => h.fits hlen hdata hreplace, fun h => h.staysInside hlen hdata⟩

namespace Sample

/-- The replacement, as far as the text `1.2.3.4` is concerned. -/
def replaceOne (x : List (BitVec 8)) : Option (List (BitVec 8)) :=
  if x = "1.2.3.4".toList.map octet then some ("<0.0.0.0>".toList.map octet) else none

theorem replaces_one : Replaces replaceOne := by
  intro x s h
  rw [replaceOne] at h
  split at h
  · rename_i hx
    cases h
    exact ⟨[], octet '1', ".2.3.4".toList.map octet, [], by decide, by decide, hx, rfl⟩
  · cases h

/-- A payload with an address, a zero and two more octets. -/
def addressed : Payload :=
  ⟨10, "1.2.3.4".toList.map octet ++ [0, 65, 66]⟩

end Sample

/-- A short payload with an address and a zero. -/
theorem staysInside_address : Sample.addressed.StaysInside Sample.replaceOne := by
  have hfits : Sample.addressed.Fits Sample.replaceOne := by
    refine ⟨by decide, by decide, .inr ⟨"<0.0.0.0".toList.map octet, by decide, fun u => ?_⟩⟩
    exact ⟨"<0.0.0.0>".toList.map octet, rfl, [octet '>', 0], rfl⟩
  exact (staysInside_iff Sample.replaces_one (by decide) (by decide)).2 hfits

/-- Of a payload of one octet, `data - 2` octets are digested, which are four gigabytes. -/
theorem staysInside_single :
    ¬∀ (replace : List (BitVec 8) → Option (List (BitVec 8))) (p : Payload), Replaces replace →
      p.octets.length = p.data.toNat → p.data ≠ 0 → p.StaysInside replace := by
  intro hall
  have hreplace : Replaces fun _ => none := fun x s h => by cases h
  have hinside := hall _ ⟨1, [65]⟩ hreplace rfl (by decide)
  have hdigests := hinside.digests 0
  revert hdigests
  decide

end Honeybrid
