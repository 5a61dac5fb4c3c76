import Honeybrid.Netcode

/-!
# What is sent

For each function that injects a frame: on which interface, and how the headers are rewritten. The
translation `nat` changes the Ethernet header, the VLAN header and one address; ports, payload and
the record of the captured frame stay.

## Main results

* `nat_ext`, `nat_toExt`: the headers after the translation of a packet from EXT and to EXT.
* `proxyInt2ext_cases`, `proxyExt2int_cases`, `forwardHih2ext_cases` and the like: the emission of
  each function.
-/

namespace Honeybrid

variable {g : Globals} {t : Target} {i : ConnId} {c : Conn} {pkt pkt' : Pkt} {ev : List Event}
  {n : NatFields} {out : IfaceId}

/-! ### The translation -/

/-- `pkt'` is `pkt` up to the headers that are rewritten on the way out. -/
structure Rewritten (pkt pkt' : Pkt) : Prop where
  original : pkt'.original = pkt.original
  origin : pkt'.origin = pkt.origin
  de : pkt'.de = pkt.de
  protocol : pkt'.packet.protocol = pkt.packet.protocol
  source : pkt'.packet.source = pkt.packet.source
  dest : pkt'.packet.dest = pkt.packet.dest

theorem Rewritten.refl (pkt : Pkt) : Rewritten pkt pkt :=
  ⟨rfl, rfl, rfl, rfl, rfl, rfl⟩

theorem Rewritten.trans {p₁ p₂ p₃ : Pkt} (h : Rewritten p₁ p₂) (h' : Rewritten p₂ p₃) :
    Rewritten p₁ p₃ :=
  ⟨h'.original.trans h.original, h'.origin.trans h.origin, h'.de.trans h.de,
    h'.protocol.trans h.protocol, h'.source.trans h.source, h'.dest.trans h.dest⟩

theorem Rewritten.stripVlan {p : Pkt} (h : Rewritten pkt p) : Rewritten pkt (stripVlan p) := by
  refine h.trans ?_
  unfold Honeybrid.stripVlan
  split_ifs
  · exact ⟨rfl, rfl, rfl, rfl, rfl, rfl⟩
  · exact Rewritten.refl p

theorem Rewritten.natVlan {p : Pkt} {v : VlanTci} (h : Rewritten pkt p) :
    Rewritten pkt (natVlan v p) := by
  refine h.trans ?_
  unfold Honeybrid.natVlan
  split_ifs
  · exact ⟨rfl, rfl, rfl, rfl, rfl, rfl⟩
  · exact Rewritten.refl p
  · exact ⟨rfl, rfl, rfl, rfl, rfl, rfl⟩
  · exact Rewritten.refl p

theorem Rewritten.nat {p : Pkt} (h : Rewritten pkt p) : Rewritten pkt (nat g n out p) := by
  refine h.trans ?_
  unfold Honeybrid.nat
  split
  · simp only
    split_ifs
    · exact ⟨rfl, rfl, rfl, rfl, rfl, rfl⟩
    · exact Rewritten.stripVlan ⟨rfl, rfl, rfl, rfl, rfl, rfl⟩
  · split
    · exact Rewritten.natVlan ⟨rfl, rfl, rfl, rfl, rfl, rfl⟩
    · exact Rewritten.stripVlan ⟨rfl, rfl, rfl, rfl, rfl, rfl⟩
    · exact Rewritten.natVlan ⟨rfl, rfl, rfl, rfl, rfl, rfl⟩
    · exact ⟨rfl, rfl, rfl, rfl, rfl, rfl⟩

@[simp] theorem stripVlan_vlan (pkt : Pkt) : (stripVlan pkt).packet.vlan = none := by
  unfold stripVlan
  split_ifs with h
  · rfl
  · simpa using h

theorem stripVlan_addrs (pkt : Pkt) :
    (stripVlan pkt).packet.saddr = pkt.packet.saddr ∧
      (stripVlan pkt).packet.daddr = pkt.packet.daddr := by
  unfold stripVlan
  split_ifs <;> exact ⟨rfl, rfl⟩

/-- The VLAN number a frame gets on the way to a handler. -/
theorem nat_ext (ho : pkt.origin = .ext) :
    (nat g n out pkt).packet.saddr = pkt.packet.saddr ∧
      (nat g n out pkt).packet.daddr = n.dstIp ∧
      (nat g n out pkt).packet.vlanId = n.dstVlan.vid := by
  simp only [nat, ho]
  split_ifs with hv
  · exact ⟨rfl, rfl, rfl⟩
  · refine ⟨(stripVlan_addrs _).1, (stripVlan_addrs _).2, ?_⟩
    rw [Frame.vlanId, stripVlan_vlan]
    exact (Decidable.not_not.mp hv).symm

theorem nat_toExt (ho : pkt.origin ≠ .ext) (hd : pkt.destination = .ext) :
    (nat g n out pkt).packet.saddr = n.srcIp ∧
      (nat g n out pkt).packet.daddr = pkt.packet.daddr ∧ (nat g n out pkt).packet.vlan = none := by
  unfold nat
  split
  · contradiction
  · rw [hd]
    exact ⟨(stripVlan_addrs _).1, (stripVlan_addrs _).2, stripVlan_vlan _⟩

/-! ### Emissions -/

/-- `proxy_int2ext` sends one frame, on the default route. -/
theorem proxyInt2ext_cases (h : proxyInt2ext g t i c pkt = .ok (pkt', ev)) :
    ∃ out srcIp dstMac, t.defaultRoute = some out ∧ snatIp g c out = .ok srcIp ∧
      pkt' = nat g { srcIp, dstMac } out { pkt with destination := .ext } ∧
      ev = [inject i c .proxyInt2ext out pkt'] := by
  simp only [proxyInt2ext] at h
  obtain ⟨out, hout, h⟩ := Except.bind_eq_ok.mp h
  obtain ⟨ip, hip, h⟩ := Except.bind_eq_ok.mp h
  cases h
  exact ⟨out, ip, _, Option.orFail_eq_ok.mp hout, hip, rfl, rfl⟩

theorem proxyInt2ext_rewritten (h : proxyInt2ext g t i c pkt = .ok (pkt', ev)) :
    Rewritten pkt pkt' := by
  obtain ⟨out, ip, mac, -, -, rfl, -⟩ := proxyInt2ext_cases h
  exact Rewritten.nat ⟨rfl, rfl, rfl, rfl, rfl, rfl⟩

/-- The handler `proxy_ext2int` sends to. -/
def receiver (t : Target) (c : Conn) : Option Handler :=
  match c.initiator with
  | .lih | .ext => t.frontHandler
  | .hih => c.hih.backHandler
  | _ => none

/-- `proxy_ext2int` sends one frame to the handler that holds the connection, unless the connection
comes from an INTRA host. -/
theorem proxyExt2int_cases (h : proxyExt2int g t i c pkt = .ok (pkt', ev)) :
    (pkt' = pkt ∧ ev = [] ∧ c.initiator ≠ .ext ∧ c.initiator ≠ .lih ∧ c.initiator ≠ .hih) ∨
    (∃ hd out role, receiver t c = some hd ∧ hd.iface = some out ∧
      pkt' = nat g { dstMac := hd.mac, dstIp := hd.ip, dstVlan := hd.vlan } out
        { pkt with destination := role } ∧
      ev = [inject i c .proxyExt2int out pkt']) := by
  unfold proxyExt2int at h
  cases hini : c.initiator with
  | ext | lih =>
    rw [hini] at h
    obtain ⟨hd, hhd, h⟩ := Except.bind_eq_ok.mp h
    obtain ⟨out, hout, h⟩ := Except.bind_eq_ok.mp h
    cases h
    exact .inr ⟨hd, out, .lih, by rw [receiver, hini]; exact Option.orFail_eq_ok.mp hhd,
      Option.orFail_eq_ok.mp hout, rfl, rfl⟩
  | hih =>
    rw [hini] at h
    obtain ⟨hd, hhd, h⟩ := Except.bind_eq_ok.mp h
    obtain ⟨out, hout, h⟩ := Except.bind_eq_ok.mp h
    cases h
    exact .inr ⟨hd, out, .hih, by rw [receiver, hini]; exact Option.orFail_eq_ok.mp hhd,
      Option.orFail_eq_ok.mp hout, rfl, rfl⟩
  | int | intra =>
    rw [hini] at h
    cases h
    exact .inl ⟨rfl, rfl, by simp, by simp, by simp⟩

theorem proxyExt2int_rewritten (h : proxyExt2int g t i c pkt = .ok (pkt', ev)) :
    Rewritten pkt pkt' := by
  obtain ⟨rfl, -⟩ | ⟨hd, out, role, -, -, rfl, -⟩ := proxyExt2int_cases h
  · exact Rewritten.refl pkt'
  · exact Rewritten.nat ⟨rfl, rfl, rfl, rfl, rfl, rfl⟩

/-- `proxy_hih2intra` sends at most one frame. -/
theorem proxyHih2intra_cases (h : proxyHih2intra g i c pkt = .ok (pkt', ev)) :
    ev = [] ∨ ∃ out, ev = [inject i c .proxyHih2intra out pkt'] := by
  unfold proxyHih2intra at h
  split at h
  · obtain ⟨out, -, h⟩ := Except.bind_eq_ok.mp h
    cases h
    exact .inr ⟨out, rfl⟩
  · cases h
    exact .inl rfl

/-- `proxy_intra2hih` sends at most one frame. -/
theorem proxyIntra2hih_cases (h : proxyIntra2hih g i c pkt = .ok (pkt', ev)) :
    ev = [] ∨ ∃ out, ev = [inject i c .proxyIntra2hih out pkt'] := by
  unfold proxyIntra2hih at h
  split at h
  · obtain ⟨out, -, h⟩ := Except.bind_eq_ok.mp h
    cases h
    exact .inr ⟨out, rfl⟩
  · cases h
    exact .inl rfl

/-- `forward_hih2ext` sends at most one frame, from the address and port the attacker knows. -/
theorem forwardHih2ext_cases (h : forwardHih2ext t i c pkt = .ok (pkt', ev)) :
    ev = [] ∨ (∃ out, t.defaultRoute = some out ∧ ev = [inject i c .forwardHih2ext out pkt'] ∧
      pkt'.origin = pkt.origin ∧ pkt'.packet.saddr = c.firstPktDstIp ∧
      pkt'.packet.source = c.hih.port ∧ pkt'.packet.daddr = pkt.packet.daddr ∧
      pkt'.packet.dest = pkt.packet.dest) := by
  unfold forwardHih2ext at h
  split at h
  · rename_i out hout
    simp only [Except.pure_eq_ok, Except.ok.injEq, Prod.mk.injEq] at h
    obtain ⟨rfl, rfl⟩ := h
    refine .inr ⟨out, hout, rfl, ?_⟩
    unfold stripVlan
    split_ifs <;> exact ⟨rfl, rfl, rfl, rfl, rfl⟩
  · cases h
    exact .inl rfl

/-! ### Frames -/

variable {e : Emission}

/-- The flow a frame belongs to, from the addresses and ports it carries. -/
structure Carries (f : Frame) (protocol : BitVec 8) (saddr : IpAddr) (source : Port)
    (daddr : IpAddr) (dest : Port) : Prop where
  protocol : f.protocol = protocol
  saddr : f.saddr = saddr
  source : f.source = source
  daddr : f.daddr = daddr
  dest : f.dest = dest

/-- A packet of EXT goes to the handler that holds the connection, on its VLAN. -/
theorem proxyExt2int_frame (ho : pkt.origin = .ext)
    (h : proxyExt2int g t i c pkt = .ok (pkt', ev)) (he : .emitted e ∈ ev) :
    ∃ hd, receiver t c = some hd ∧ hd.iface = some e.out ∧ e.frame.vlanId = hd.vlan.vid ∧
      Carries e.frame pkt.packet.protocol pkt.packet.saddr pkt.packet.source hd.ip
        pkt.packet.dest := by
  have hrw := proxyExt2int_rewritten h
  obtain ⟨-, rfl, -⟩ | ⟨hd, out, role, hrecv, hout, rfl, rfl⟩ := proxyExt2int_cases h
  · cases he
  · simp only [inject, List.mem_singleton, Event.emitted.injEq] at he
    subst he
    have ho' : ({ pkt with destination := role } : Pkt).origin = .ext := ho
    exact ⟨hd, hrecv, hout, (nat_ext ho').2.2, hrw.protocol, (nat_ext ho').1, hrw.source,
      (nat_ext ho').2.1, hrw.dest⟩

/-- A packet from inside leaves on the default route, untagged and with a translated source. -/
theorem proxyInt2ext_frame (ho : pkt.origin ≠ .ext)
    (h : proxyInt2ext g t i c pkt = .ok (pkt', ev)) (he : .emitted e ∈ ev) :
    ∃ ip, t.defaultRoute = some e.out ∧ snatIp g c e.out = .ok ip ∧ e.frame.vlan = none ∧
      Carries e.frame pkt.packet.protocol ip pkt.packet.source pkt.packet.daddr
        pkt.packet.dest := by
  have hrw := proxyInt2ext_rewritten h
  obtain ⟨out, ip, mac, hout, hip, rfl, rfl⟩ := proxyInt2ext_cases h
  simp only [inject, List.mem_singleton, Event.emitted.injEq] at he
  subst he
  have ho' : ({ pkt with destination := .ext } : Pkt).origin ≠ .ext := ho
  exact ⟨ip, hout, hip, (nat_toExt ho' rfl).2.2, hrw.protocol, (nat_toExt ho' rfl).1, hrw.source,
    (nat_toExt ho' rfl).2.1, hrw.dest⟩

/-- An untagged packet of EXT goes to the backend of a redirected connection, on its VLAN. -/
theorem forwardExt2hih_frame (hv : pkt.packet.vlanId = 0)
    (h : forwardExt2hih g i c pkt = .ok (pkt', ev)) (he : .emitted e ∈ ev) :
    ∃ hd, c.hih.backHandler = some hd ∧ hd.iface = some e.out ∧ e.frame.vlanId = hd.vlan.vid ∧
      Carries e.frame pkt.packet.protocol pkt.packet.saddr pkt.packet.source hd.ip c.hih.port := by
  unfold forwardExt2hih at h
  split at h
  · rename_i hd hb
    obtain ⟨out, hout, h⟩ := Except.bind_eq_ok.mp h
    cases h
    simp only [inject, List.mem_singleton, Event.emitted.injEq] at he
    subst he
    refine ⟨hd, hb, Option.orFail_eq_ok.mp hout, ?_, ?_⟩
    · by_cases hi : hd.vlan.i = 0
      · have hvid : hd.vlan.vid = 0 := by simp [VlanTci.vid, hi]
        split_ifs <;> simp_all [Frame.vlanId]
      · split_ifs <;> simp_all [Frame.vlanId]
    · split_ifs <;> exact ⟨rfl, rfl, rfl, rfl, rfl⟩
  · cases h
    cases he

/-- A packet of the backend leaves from the address and port the attacker knows. -/
theorem forwardHih2ext_frame (h : forwardHih2ext t i c pkt = .ok (pkt', ev))
    (he : .emitted e ∈ ev) :
    t.defaultRoute = some e.out ∧ Carries e.frame pkt.packet.protocol c.firstPktDstIp c.hih.port
      pkt.packet.daddr pkt.packet.dest := by
  unfold forwardHih2ext at h
  split at h
  · rename_i out hout
    cases h
    simp only [inject, List.mem_singleton, Event.emitted.injEq] at he
    subst he
    refine ⟨hout, ?_⟩
    unfold stripVlan
    split_ifs <;> exact ⟨rfl, rfl, rfl, rfl, rfl⟩
  · cases h
    cases he

/-! ### Frames that are always sent -/

variable {out : IfaceId}

/-- With a default route, `proxy_int2ext` sends the packet there. -/
theorem proxyInt2ext_emits {ip : IpAddr} (i : ConnId) (pkt : Pkt)
    (hroute : t.defaultRoute = some out)
    (hip : snatIp g c out = .ok ip) :
    ∃ pkt' e, proxyInt2ext g t i c pkt = .ok (pkt', [.emitted e]) ∧ e.sender = .proxyInt2ext ∧
      e.out = out ∧ e.frame = pkt'.packet := by
  rw [proxyInt2ext, hroute]
  simp only [Option.orFail_some, Except.ok_bind, hip]
  exact ⟨_, _, rfl, rfl, rfl, rfl⟩

/-- With a default route, `forward_hih2ext` sends the packet there. -/
theorem forwardHih2ext_emits (i : ConnId) (c : Conn) (pkt : Pkt)
    (hroute : t.defaultRoute = some out) :
    ∃ pkt' e, forwardHih2ext t i c pkt = .ok (pkt', [.emitted e]) ∧ e.sender = .forwardHih2ext ∧
      e.out = out ∧ e.frame = pkt'.packet := by
  rw [forwardHih2ext, hroute]
  exact ⟨_, _, rfl, rfl, rfl, rfl⟩

/-- `forward_ext2hih` sends the packet to the backend. -/
theorem forwardExt2hih_emits {hd : Handler} (g : Globals) (i : ConnId) (pkt : Pkt)
    (hback : c.hih.backHandler = some hd) (hout : hd.iface = some out) :
    ∃ pkt' e, forwardExt2hih g i c pkt = .ok (pkt', [.emitted e]) ∧ e.sender = .forwardExt2hih ∧
      e.out = out ∧ e.frame = pkt'.packet := by
  rw [forwardExt2hih, hback]
  simp only [hout, Option.orFail_some, Except.ok_bind]
  exact ⟨_, _, rfl, rfl, rfl, rfl⟩

/-- `proxy_ext2int` sends the packet to the honeypot of the connection. -/
theorem proxyExt2int_emits {hd : Handler} (g : Globals) (i : ConnId) (pkt : Pkt)
    (hrecv : receiver t c = some hd) (hout : hd.iface = some out) :
    ∃ pkt' e, proxyExt2int g t i c pkt = .ok (pkt', [.emitted e]) ∧ e.sender = .proxyExt2int ∧
      e.out = out ∧ e.frame = pkt'.packet := by
  unfold receiver at hrecv
  unfold proxyExt2int
  cases hini : c.initiator with
  | ext | lih | hih =>
    rw [hini] at hrecv
    simp only [hrecv, hout, Option.orFail_some, Except.ok_bind]
    exact ⟨_, _, rfl, rfl, rfl, rfl⟩
  | int | intra =>
    rw [hini] at hrecv
    cases hrecv

end Honeybrid
