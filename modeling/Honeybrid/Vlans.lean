import Honeybrid.Emissions
import Honeybrid.Configuration
import Honeybrid.Wire

/-!
# VLAN tags

The tag of a frame that is sent to a honeypot or an INTRA host, and the test by which packets are
matched with the VLAN of a handler.

`nat` looks at the bit-field `vid` of the handler's tag and `forward_ext2hih` at the whole word, and
a tag that a frame already has is kept by some of the branches. The bit-fields of `struct vlan_tci`
are those of a little-endian word, while the tag is stored as it is sent: the field `vid` holds the
low octet of the VLAN identifier, followed by the priority bits, and the upper four bits of the
identifier are in the fields `pcp` and `dei`.

## Main definitions

* `Handler.tag`: the tag that frames to a handler must carry.
* `Way`, `Sent`, `RightTag`: the functions that send a frame, and when they tag it rightly.
* `Tag`, `Tag.tci`: a tag as it is sent, and as it is read.
* `MatchedById`, `Distinguished`: matching by VLAN identifier, and when it works.

## Main results

* `tags_iff`: a frame carries the tag of its handler exactly under the condition `RightTag`.
* `matched_iff`: packets are matched by VLAN identifier exactly under the condition `Distinguished`.
-/

namespace Honeybrid

/-! ### The tag of a frame -/

/-- The VLAN header a frame to the handler must have: none if no VLAN is configured. -/
def Handler.tag (h : Handler) : Option VlanTci :=
  if h.vlan.i = 0 then none else some h.vlan

/-- The ways of a frame to a honeypot or an INTRA host. A replayed packet was proxied to the
low-interaction honeypot before. -/
inductive Way
  | ext2int | ext2hih | replayed | hih2intra | intra2hih
  deriving DecidableEq, Repr

/-- A packet is sent to a handler, and leaves as the given frame. -/
inductive Sent (g : Globals) (t : Target) (pkt : Pkt) : Way → Handler → Frame → Prop
  | ext2int {i : ConnId} {c : Conn} {h : Handler} {pkt' : Pkt} {ev : List Event} {e : Emission}
      (ho : pkt.origin = .ext) (hr : receiver t c = some h)
      (hs : proxyExt2int g t i c pkt = .ok (pkt', ev)) (he : .emitted e ∈ ev) :
      Sent g t pkt .ext2int h e.frame
  | ext2hih {i : ConnId} {c : Conn} {h : Handler} {pkt' : Pkt} {ev : List Event} {e : Emission}
      (hr : c.hih.backHandler = some h)
      (hs : forwardExt2hih g i c pkt = .ok (pkt', ev)) (he : .emitted e ∈ ev) :
      Sent g t pkt .ext2hih h e.frame
  | replayed {i j : ConnId} {c₀ c : Conn} {h : Handler} {pkt₀ pkt' : Pkt} {ev₀ ev : List Event}
      {e : Emission} (ho : pkt.origin = .ext) (hini : c₀.initiator = .ext)
      (h₀ : proxyExt2int g t j c₀ pkt = .ok (pkt₀, ev₀)) (hr : c.hih.backHandler = some h)
      (hs : forwardExt2hih g i c pkt₀ = .ok (pkt', ev)) (he : .emitted e ∈ ev) :
      Sent g t pkt .replayed h e.frame
  | hih2intra {i : ConnId} {c : Conn} {h : Handler} {pkt' : Pkt} {ev : List Event} {e : Emission}
      (ho : pkt.origin ≠ .ext) (hr : c.intraHandler = some h)
      (hs : proxyHih2intra g i c pkt = .ok (pkt', ev)) (he : .emitted e ∈ ev) :
      Sent g t pkt .hih2intra h e.frame
  | intra2hih {i : ConnId} {c : Conn} {h : Handler} {pkt' : Pkt} {ev : List Event} {e : Emission}
      (ho : pkt.origin ≠ .ext) (hr : c.hih.backHandler = some h)
      (hs : proxyIntra2hih g i c pkt = .ok (pkt', ev)) (he : .emitted e ∈ ev) :
      Sent g t pkt .intra2hih h e.frame

/-- When a packet is tagged rightly. `nat` needs a tag whose field `vid` is not zero, or else a
frame that already has the right tag; `forward_ext2hih` leaves a frame to an untagged honeypot as it
is, with the tag of the low-interaction honeypot if it was proxied there. -/
def RightTag (t : Target) (pkt : Pkt) (h : Handler) : Way → Prop
  | .ext2int => h.vlan.vid ≠ 0 ∨ h.vlan.i = 0
  | .ext2hih => h.vlan.i ≠ 0 ∨ pkt.packet.vlan = none
  | .replayed => h.vlan.i ≠ 0 ∨ ∀ front, t.frontHandler = some front → front.vlan.vid = 0
  | .hih2intra | .intra2hih => h.vlan.vid ≠ 0 ∨ pkt.packet.vlan = h.tag

section

variable {g : Globals} {t : Target} {i : ConnId} {c : Conn} {pkt pkt' : Pkt} {h : Handler}
  {out : IfaceId} {n : NatFields} {ev : List Event} {e : Emission} {v : VlanTci}

theorem VlanTci.vid_eq_zero (hi : v.i = 0) : v.vid = 0 := by
  simp [VlanTci.vid, hi]

theorem Handler.tag_of_vid (hv : h.vlan.vid ≠ 0) : h.tag = some h.vlan :=
  if_neg fun hi => hv (VlanTci.vid_eq_zero hi)

/-- `nat` gives a packet of EXT the tag of the handler, or none. -/
theorem nat_ext_vlan (ho : pkt.origin = .ext) :
    (nat g n out pkt).packet.vlan = if n.dstVlan.vid ≠ 0 then some n.dstVlan else none := by
  simp only [nat, ho]
  split_ifs
  · rfl
  · exact stripVlan_vlan _

theorem natVlan_vlan (v : VlanTci) (pkt : Pkt) :
    (natVlan v pkt).packet.vlan = if v.vid ≠ 0 then some v else pkt.packet.vlan := by
  unfold natVlan
  split_ifs <;> rfl

/-- The other packets keep the tag they have where the handler has none. -/
theorem nat_inner_vlan (ho : pkt.origin ≠ .ext)
    (hd : pkt.destination = .intra ∨ pkt.destination = .hih) :
    (nat g n out pkt).packet.vlan =
      if n.dstVlan.vid ≠ 0 then some n.dstVlan else pkt.packet.vlan := by
  unfold nat
  split
  · contradiction
  · obtain hd | hd := hd
    · rw [hd]
      exact natVlan_vlan _ _
    · rw [hd]
      exact natVlan_vlan _ _

/-- A tag that is set or kept is right if it is set, or right already. -/
theorem kept_eq_tag_iff {w : Option VlanTci} :
    (if h.vlan.vid ≠ 0 then some h.vlan else w) = h.tag ↔ h.vlan.vid ≠ 0 ∨ w = h.tag := by
  by_cases hv : h.vlan.vid ≠ 0
  · rw [if_pos hv, h.tag_of_vid hv]
    exact iff_of_true rfl (.inl hv)
  · rw [if_neg hv]
    exact ⟨.inr, fun hw => hw.resolve_left hv⟩

theorem proxyExt2int_vlan (ho : pkt.origin = .ext) (hr : receiver t c = some h)
    (hs : proxyExt2int g t i c pkt = .ok (pkt', ev)) (he : .emitted e ∈ ev) :
    e.frame = pkt'.packet ∧
      pkt'.packet.vlan = if h.vlan.vid ≠ 0 then some h.vlan else none := by
  obtain ⟨-, rfl, -⟩ | ⟨hd, out, role, hrecv, -, rfl, rfl⟩ := proxyExt2int_cases hs
  · cases he
  · cases hr.symm.trans hrecv
    simp only [inject, List.mem_singleton, Event.emitted.injEq] at he
    subst he
    have ho' : ({ pkt with destination := role } : Pkt).origin = .ext := ho
    exact ⟨rfl, nat_ext_vlan ho'⟩

theorem forwardExt2hih_vlan (hr : c.hih.backHandler = some h)
    (hs : forwardExt2hih g i c pkt = .ok (pkt', ev)) (he : .emitted e ∈ ev) :
    e.frame.vlan = if h.vlan.i ≠ 0 then some h.vlan else pkt.packet.vlan := by
  simp only [forwardExt2hih, hr] at hs
  obtain ⟨out, -, hs⟩ := Except.bind_eq_ok.mp hs
  cases hs
  simp only [inject, List.mem_singleton, Event.emitted.injEq] at he
  subst he
  dsimp only
  split_ifs <;> rfl

theorem forwardExt2hih_tag_iff (hr : c.hih.backHandler = some h)
    (hs : forwardExt2hih g i c pkt = .ok (pkt', ev)) (he : .emitted e ∈ ev) :
    e.frame.vlan = h.tag ↔ h.vlan.i ≠ 0 ∨ pkt.packet.vlan = none := by
  rw [forwardExt2hih_vlan hr hs he, Handler.tag]
  by_cases hi : h.vlan.i = 0
  · rw [if_neg (not_not.2 hi), if_pos hi]
    exact ⟨.inr, fun hw => hw.resolve_left (not_not.2 hi)⟩
  · rw [if_pos hi, if_neg hi]
    exact iff_of_true rfl (.inl hi)

/-- A frame to an INTRA host or back from it has the tag of the handler or the one it came with. -/
theorem proxyHih2intra_vlan (ho : pkt.origin ≠ .ext) (hr : c.intraHandler = some h)
    (hs : proxyHih2intra g i c pkt = .ok (pkt', ev)) (he : .emitted e ∈ ev) :
    e.frame.vlan = if h.vlan.vid ≠ 0 then some h.vlan else pkt.packet.vlan := by
  simp only [proxyHih2intra, hr] at hs
  obtain ⟨out, -, hs⟩ := Except.bind_eq_ok.mp hs
  cases hs
  simp only [inject, List.mem_singleton, Event.emitted.injEq] at he
  subst he
  have ho' : ({ pkt with destination := .intra } : Pkt).origin ≠ .ext := ho
  exact nat_inner_vlan ho' (.inl rfl)

theorem proxyIntra2hih_vlan (ho : pkt.origin ≠ .ext) (hr : c.hih.backHandler = some h)
    (hs : proxyIntra2hih g i c pkt = .ok (pkt', ev)) (he : .emitted e ∈ ev) :
    e.frame.vlan = if h.vlan.vid ≠ 0 then some h.vlan else pkt.packet.vlan := by
  simp only [proxyIntra2hih, hr] at hs
  obtain ⟨out, -, hs⟩ := Except.bind_eq_ok.mp hs
  cases hs
  simp only [inject, List.mem_singleton, Event.emitted.injEq] at he
  subst he
  have ho' : ({ pkt with destination := .hih } : Pkt).origin ≠ .ext := ho
  exact nat_inner_vlan ho' (.inr rfl)

theorem none_eq_tag_iff : none = h.tag ↔ h.vlan.i = 0 := by
  unfold Handler.tag
  split_ifs with hi
  · exact iff_of_true rfl hi
  · exact iff_of_false (fun h => by cases h) hi

/-- **Tags.** A frame that is sent to a honeypot or an INTRA host carries the tag of its handler
exactly under the condition `RightTag`. -/
theorem tags_iff {way : Way} {f : Frame} (hs : Sent g t pkt way h f) :
    f.vlan = h.tag ↔ RightTag t pkt h way := by
  cases hs with
  | ext2int ho hr hs he =>
    obtain ⟨hf, hv⟩ := proxyExt2int_vlan ho hr hs he
    rw [hf, hv, kept_eq_tag_iff, none_eq_tag_iff]
    rfl
  | ext2hih hr hs he => exact forwardExt2hih_tag_iff hr hs he
  | replayed ho hini h₀ hr hs he =>
    rw [forwardExt2hih_tag_iff hr hs he]
    refine or_congr_right ?_
    -- the packet was proxied to the front handler
    obtain ⟨-, -, hne, -⟩ | ⟨front, out, role, hrecv, -, rfl, -⟩ := proxyExt2int_cases h₀
    · exact absurd hini hne
    · have ho' : ({ pkt with destination := role } : Pkt).origin = .ext := ho
      have hfront : t.frontHandler = some front := by
        rw [receiver, hini] at hrecv
        exact hrecv
      rw [nat_ext_vlan ho']
      simp [hfront]
  | hih2intra ho hr hs he =>
    rw [proxyHih2intra_vlan ho hr hs he, kept_eq_tag_iff]
    rfl
  | intra2hih ho hr hs he =>
    rw [proxyIntra2hih_vlan ho hr hs he, kept_eq_tag_iff]
    rfl

end

namespace Sample

/-- A frame of the backend, on VLAN 10. -/
def taggedRequest : Pkt :=
  { packet .hih (udp 2 20 1000 40 80) with
    packet := { (udp 2 20 1000 40 80).frame with vlan := some ⟨0x0a00⟩ } }

/-- A connection from the honeypot to the INTRA host `h`. -/
def toIntra (h : Handler) : Conn :=
  { Conn.fresh taggedRequest 1 .hih 0 .init with intraHandler := some h }

end Sample

theorem tags_tagged :
    ∃ f, Sent Sample.globals Sample.target Sample.taggedRequest .hih2intra
      { Sample.intra with vlan := ⟨0x0b00⟩ } f ∧ f.vlan = some ⟨0x0b00⟩ := by
  have hsent : ∃ f, Sent Sample.globals Sample.target Sample.taggedRequest .hih2intra
      { Sample.intra with vlan := ⟨0x0b00⟩ } f :=
    ⟨_, .hih2intra (i := 1) (c := Sample.toIntra { Sample.intra with vlan := ⟨0x0b00⟩ })
      (by decide) rfl rfl (.head _)⟩
  obtain ⟨f, hf⟩ := hsent
  exact ⟨f, hf, (tags_iff hf).2 (.inl (by decide))⟩

/-- A tagged frame to an INTRA host without a VLAN keeps its tag. -/
theorem tags_broken :
    ¬∀ (g : Globals) (t : Target) (pkt : Pkt) (way : Way) (h : Handler) (f : Frame),
      Sent g t pkt way h f → f.vlan = h.tag := by
  intro hall
  have hsent : ∃ f, Sent Sample.globals Sample.target Sample.taggedRequest .hih2intra
      Sample.intra f ∧ f.vlan = some ⟨0x0a00⟩ :=
    ⟨_, .hih2intra (i := 1) (c := Sample.toIntra Sample.intra) (by decide) rfl rfl (.head _), rfl⟩
  obtain ⟨f, hf, hv⟩ := hsent
  have htag := hall _ _ _ _ _ _ hf
  rw [hv] at htag
  exact absurd htag (by decide)

/-! ### Matching by identifier -/

/-- A VLAN tag: priority, drop eligibility and identifier, in the order in which they are sent. -/
structure Tag where
  pcp : BitVec 3
  dei : BitVec 1
  vid : BitVec 12
  deriving DecidableEq, Repr

/-- The tag as `struct vlan_tci` holds it, in network byte order. -/
def Tag.tci (x : Tag) : VlanTci :=
  ⟨ntohs (x.pcp ++ x.dei ++ x.vid)⟩

/-- The low octet of the identifier. -/
def Tag.low (x : Tag) : BitVec 8 :=
  x.vid.extractLsb' 0 8

/-- A handler on the VLAN that a configuration names by its number. -/
def Configured (v : ℕ) (h : Handler) : Prop :=
  ∃ (hp : Honeypot) (links : String → Option IfaceId) (e : ConfigError),
    hp.vlan = v ∧ hp.handler links e = .ok h

/-- A packet and a handler whose interface and address are those of the packet's sender. -/
def FromHost (pkt : Pkt) (h : Handler) : Prop :=
  h.iface = some pkt.inIface ∧ h.ip = pkt.packet.saddr

/-- VLANs are told apart by their identifiers: the handlers of VLAN `v` and the packets that are
tagged `x`, and the packets that are tagged `x` and `y`. -/
structure MatchedById (v : ℕ) (x y : Tag) : Prop where
  connLookup : ∀ (h : Handler) (pkt : Pkt), Configured v h → pkt.packet.vlan = some x.tci →
    (pkt.connKey.vlanId = h.vlan.vid ↔ v = x.vid.toNat)
  classify : ∀ (h : Handler) (pkt : Pkt), Configured v h → pkt.packet.vlan = some x.tci →
    FromHost pkt h → (classify h pkt = .lih ↔ v = x.vid.toNat)
  findHihSrc : ∀ (h : Handler) (pkt : Pkt), Configured v h → pkt.packet.vlan = some x.tci →
    FromHost pkt h → (findHihSrc pkt h = true ↔ v = x.vid.toNat)
  findIntra : ∀ (h : Handler) (pkt : Pkt), Configured v h → pkt.packet.vlan = some x.tci →
    FromHost pkt h → (findIntra pkt h = true ↔ v = x.vid.toNat)
  nat : ∀ (h : Handler) (g : Globals) (n : NatFields) (out : IfaceId) (pkt : Pkt),
    Configured v h → n.dstVlan = h.vlan →
    (pkt.origin = .ext ∨
      pkt.packet.vlan = none ∧ (pkt.destination = .intra ∨ pkt.destination = .hih)) →
    ((nat g n out pkt).packet.vlan.isSome ↔ v ≠ 0)
  connKey : ∀ pkt pkt' : Pkt, pkt.packet.vlan = some x.tci → pkt'.packet.vlan = some y.tci →
    x.vid ≠ y.vid → pkt.connKey ≠ pkt'.connKey

/-- When VLANs are told apart. The field that is compared has the low octet of the identifier and
the priority bits, which are zero in a handler's tag. -/
structure Distinguished (v : ℕ) (x y : Tag) : Prop where
  same : v = x.vid.toNat → x.pcp = 0 ∧ x.dei = 0
  other : v ≠ x.vid.toNat → v % 256 ≠ x.low.toNat ∨ x.pcp ≠ 0 ∨ x.dei ≠ 0
  tagged : v = 0 ∨ v % 256 ≠ 0
  keys : x.vid ≠ y.vid → x.low ≠ y.low ∨ x.pcp ≠ y.pcp ∨ x.dei ≠ y.dei

/-- The octets of a tagged frame are read as its tag. -/
theorem frameOf_tag {m : Octets} {ip : ℕ} {x : Tag} (hv : m.be16 12 = Wire.ETHERTYPE_VLAN)
    (hx : m.be16 14 = x.pcp ++ x.dei ++ x.vid) : (Wire.frameOf m ip).vlan = some x.tci := by
  have hne : m.be16 12 ≠ Wire.ETHERTYPE_IP := by
    rw [hv]
    decide
  have hword : m.le16 14 = ntohs (m.be16 14) := by
    unfold Octets.le16 Octets.be16 ntohs
    ext i hi
    grind
  show (if m.be16 12 = Wire.ETHERTYPE_IP then none else some ⟨m.le16 14⟩) = some x.tci
  rw [if_neg hne, hword, hx]
  rfl

section

variable {v : ℕ} {x y : Tag} {h : Handler} {pkt : Pkt}

/-- The bit-field `vid` of a tag. -/
theorem Tag.tci_vid (x : Tag) : x.tci.vid = x.low ++ x.pcp ++ x.dei := by
  unfold Tag.tci VlanTci.vid ntohs Tag.low
  ext i hi
  grind

theorem append_eq_append_iff {m n : ℕ} {a a' : BitVec m} {b b' : BitVec n} :
    a ++ b = a' ++ b' ↔ a = a' ∧ b = b' := by
  constructor
  · intro h
    constructor
    · have hhi := congrArg (BitVec.extractLsb' n m) h
      rwa [BitVec.extractLsb'_append_eq_left, BitVec.extractLsb'_append_eq_left] at hhi
    · have hlo := congrArg (BitVec.extractLsb' 0 n) h
      rwa [BitVec.extractLsb'_append_eq_right, BitVec.extractLsb'_append_eq_right] at hlo
  · rintro ⟨rfl, rfl⟩
    rfl

theorem Tag.vid_eq_iff : x.tci.vid = y.tci.vid ↔ x.low = y.low ∧ x.pcp = y.pcp ∧ x.dei = y.dei := by
  rw [x.tci_vid, y.tci_vid, append_eq_append_iff, append_eq_append_iff, and_assoc]

/-- A configured number is stored as a tag without priority bits. -/
theorem vlanWord_eq (v : ℕ) : vlanWord v = Tag.tci ⟨0, 0, BitVec.ofNat 12 v⟩ := by
  have hword : BitVec.ofNat 16 (v % 2 ^ 12) =
      (0 : BitVec 3) ++ (0 : BitVec 1) ++ BitVec.ofNat 12 v := by
    apply BitVec.eq_of_toNat_eq
    rw [BitVec.toNat_append, BitVec.toNat_ofNat, BitVec.toNat_ofNat]
    show v % 2 ^ 12 % 2 ^ 16 = 0 ||| v % 2 ^ 12
    rw [Nat.zero_or]
    omega
  rw [vlanWord, hword]
  rfl

theorem low_toNat (v : ℕ) : (Tag.low ⟨0, 0, BitVec.ofNat 12 v⟩).toNat = v % 256 := by
  simp only [Tag.low, BitVec.extractLsb'_toNat, BitVec.toNat_ofNat, Nat.shiftRight_zero]
  omega

theorem vlanWord_vid_eq_iff :
    (vlanWord v).vid = x.tci.vid ↔ v % 256 = x.low.toNat ∧ x.pcp = 0 ∧ x.dei = 0 := by
  rw [vlanWord_eq, Tag.vid_eq_iff, ← BitVec.toNat_inj, low_toNat]
  exact and_congr_right fun _ => and_congr eq_comm eq_comm

theorem vlanWord_vid_eq_zero : (vlanWord v).vid = 0 ↔ v % 256 = 0 := by
  have hzero : (Tag.tci ⟨0, 0, 0⟩).vid = 0 := by decide
  rw [← hzero, vlanWord_vid_eq_iff]
  exact and_iff_left ⟨rfl, rfl⟩

theorem Configured.vlan_eq (hc : Configured v h) : h.vlan = vlanWord v := by
  obtain ⟨hp, links, e, rfl, hh⟩ := hc
  obtain ⟨iface, -, hh⟩ := Except.bind_eq_ok.mp hh
  cases hh
  rfl

/-- Every sender may be a configured handler. -/
theorem exists_configured (v : ℕ) (pkt : Pkt) : ∃ h, Configured v h ∧ FromHost pkt h :=
  ⟨_, ⟨⟨"", pkt.packet.saddr, 0, none, v⟩, fun _ => some pkt.inIface, .frontInterface,
    rfl, rfl⟩, rfl, rfl⟩

/-- The handler's field `vid` is that of a tagged packet. -/
theorem Configured.vid_eq_iff (hc : Configured v h) (ht : pkt.packet.vlan = some x.tci) :
    h.vlan.vid = pkt.packet.vlanId ↔ v % 256 = x.low.toNat ∧ x.pcp = 0 ∧ x.dei = 0 := by
  have hid : pkt.packet.vlanId = x.tci.vid := by simp [Frame.vlanId, ht]
  rw [hc.vlan_eq, hid, vlanWord_vid_eq_iff]

theorem classify_iff (hf : FromHost pkt h) :
    classify h pkt = .lih ↔ h.vlan.vid = pkt.packet.vlanId := by
  simp [classify, hf.1, hf.2]

theorem findHihSrc_iff (hf : FromHost pkt h) :
    findHihSrc pkt h = true ↔ h.vlan.vid = pkt.packet.vlanId := by
  simp [findHihSrc, hf.1, hf.2]

theorem findIntra_iff (hf : FromHost pkt h) :
    findIntra pkt h = true ↔ h.vlan.vid = pkt.packet.vlanId := by
  simp [findIntra, hf.1, hf.2]

/-- A packet that `nat` finds without a tag, or from EXT, has one afterwards if the handler's
number is not a multiple of 256. -/
theorem nat_tagged_iff {g : Globals} {n : NatFields} {out : IfaceId} (hc : Configured v h)
    (hn : n.dstVlan = h.vlan)
    (ho : pkt.origin = .ext ∨
      pkt.packet.vlan = none ∧ (pkt.destination = .intra ∨ pkt.destination = .hih)) :
    (nat g n out pkt).packet.vlan.isSome ↔ v % 256 ≠ 0 := by
  have hvlan : (nat g n out pkt).packet.vlan =
      if n.dstVlan.vid ≠ 0 then some n.dstVlan else none := by
    by_cases he : pkt.origin = .ext
    · exact nat_ext_vlan he
    · obtain ⟨hnone, hd⟩ := ho.resolve_left he
      rw [nat_inner_vlan he hd, hnone]
  rw [hvlan, hn, hc.vlan_eq, ne_eq (v % 256), ← vlanWord_vid_eq_zero]
  split_ifs with hv
  · exact iff_of_true rfl hv
  · exact iff_of_false (by simp) hv

theorem Tag.low_toNat (x : Tag) : x.low.toNat = x.vid.toNat % 256 := by
  simp [Tag.low, BitVec.extractLsb'_toNat]

/-- The condition, by the tests of the code. -/
theorem distinguished_iff : Distinguished v x y ↔
    ((v % 256 = x.low.toNat ∧ x.pcp = 0 ∧ x.dei = 0) ↔ v = x.vid.toNat) ∧
      (v % 256 ≠ 0 ↔ v ≠ 0) ∧ (x.vid ≠ y.vid → x.tci.vid ≠ y.tci.vid) := by
  have hlow := x.low_toNat
  constructor
  · intro hd
    refine ⟨⟨fun hx => ?_, fun hx => ⟨?_, hd.same hx⟩⟩, ?_, fun hne => ?_⟩
    · by_contra hv
      obtain h | h | h := hd.other hv
      · exact h hx.1
      · exact h hx.2.1
      · exact h hx.2.2
    · rw [hlow, hx]
    · have htagged := hd.tagged
      omega
    · rw [ne_eq, Tag.vid_eq_iff]
      rintro ⟨hlow, hpcp, hdei⟩
      obtain h | h | h := hd.keys hne
      · exact h hlow
      · exact h hpcp
      · exact h hdei
  · rintro ⟨hmatch, htagged, hkeys⟩
    refine ⟨fun hx => (hmatch.2 hx).2, fun hx => ?_, by omega, fun hne => ?_⟩
    · by_contra! hsame
      exact hx (hmatch.1 hsame)
    · by_contra! hsame
      exact hkeys hne (Tag.vid_eq_iff.2 hsame)

/-- A packet with a tag. -/
def Pkt.tagged (pkt : Pkt) (x : Tag) : Pkt :=
  { pkt with packet := { pkt.packet with vlan := some x.tci } }

theorem MatchedById.distinguished (hm : MatchedById v x y) : Distinguished v x y := by
  obtain ⟨h, hc, hf⟩ := exists_configured v Sample.taggedRequest
  rw [distinguished_iff]
  refine ⟨?_, ?_, fun hne heq => ?_⟩
  · have ht : (Sample.taggedRequest.tagged x).packet.vlan = some x.tci := rfl
    rw [← hm.connLookup h _ hc ht, ← hc.vid_eq_iff ht]
    exact eq_comm
  · have hn : ({ dstMac := 0, dstVlan := h.vlan } : NatFields).dstVlan = h.vlan := rfl
    have ho : ({ Sample.taggedRequest with origin := .ext } : Pkt).origin = .ext := rfl
    exact (nat_tagged_iff hc hn (.inl ho)).symm.trans
      (hm.nat h Sample.globals _ 0 _ hc hn (.inl ho))
  · refine hm.connKey (Sample.taggedRequest.tagged x) (Sample.taggedRequest.tagged y) rfl rfl hne ?_
    show ({ Sample.taggedRequest.connKey with vlanId := x.tci.vid } : ConnKey) =
      { Sample.taggedRequest.connKey with vlanId := y.tci.vid }
    rw [heq]

/-- **Matching by identifier.** Packets are matched with the VLAN of a handler by the VLAN
identifier, and the keys of different VLANs differ, exactly under the condition `Distinguished`. -/
theorem matched_iff (v : ℕ) (x y : Tag) : MatchedById v x y ↔ Distinguished v x y := by
  constructor
  · exact MatchedById.distinguished
  · intro hd
    obtain ⟨hmatch, htagged, hkeys⟩ := distinguished_iff.1 hd
    constructor
    case connLookup =>
      intro h pkt hc ht
      exact eq_comm.trans ((hc.vid_eq_iff ht).trans hmatch)
    case classify =>
      intro h pkt hc ht hf
      exact (classify_iff hf).trans ((hc.vid_eq_iff ht).trans hmatch)
    case findHihSrc =>
      intro h pkt hc ht hf
      exact (findHihSrc_iff hf).trans ((hc.vid_eq_iff ht).trans hmatch)
    case findIntra =>
      intro h pkt hc ht hf
      exact (findIntra_iff hf).trans ((hc.vid_eq_iff ht).trans hmatch)
    case nat =>
      intro h g n out pkt hc hn ho
      exact (nat_tagged_iff hc hn ho).trans htagged
    case connKey =>
      intro pkt pkt' ht ht' hne hkey
      have hid : pkt.packet.vlanId = pkt'.packet.vlanId := congrArg ConnKey.vlanId hkey
      rw [Frame.vlanId, Frame.vlanId, ht, ht'] at hid
      exact hkeys hne hid

/-- VLAN 257 is not told apart from VLAN 1. -/
theorem matched_broken : ¬∀ v < 4096, ∀ x y : Tag, MatchedById v x y := by
  intro hall
  have hd := (hall 1 (by decide) ⟨0, 0, 257⟩ ⟨0, 0, 1⟩).distinguished
  exact absurd (hd.other (by decide)) (by decide)

end

end Honeybrid
