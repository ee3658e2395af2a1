import SamuraiFormal.Net.Socks5Messages

/-!
# Targets on the local network

Which spellings of a local peer the constructor of the handshake refuses when private
targets are not allowed.  `DenotesLocal` says by octets and labels what a local peer
is; the constructor tests host-order words under masks and the text behind the last
dot.  The two agree up to four spellings, and `create_refuses_iff` names them.
-/

namespace SamuraiFormal.Net

open Util
open List

/-- Loopback, RFC 1918, link-local, multicast and unspecified IPv4 addresses. -/
def LocalV4 (octets : Octets 4) : Prop :=
  match octets.val with
  | [a, b, c, d] =>
    a = 127 ∨ a = 10 ∨ (a = 172 ∧ 16 ≤ b ∧ b < 32) ∨ (a = 192 ∧ b = 168) ∨
      (a = 169 ∧ b = 254) ∨ (224 ≤ a ∧ a < 240) ∨ (a = 0 ∧ b = 0 ∧ c = 0 ∧ d = 0)
  | _ => False

/-- The former class E, which the source counts as invalid. -/
def ReservedV4 (octets : Octets 4) : Prop := 240 ≤ octets.val.getD 0 0

/-- Loopback, unique-local, link-local, multicast and unspecified IPv6 addresses. -/
def LocalV6 (octets : Octets 16) : Prop :=
  octets.val = List.replicate 15 0 ++ [1] ∨
    (252 ≤ octets.val.getD 0 0 ∧ octets.val.getD 0 0 < 254) ∨
    (octets.val.getD 0 0 = 254 ∧ 128 ≤ octets.val.getD 1 0 ∧ octets.val.getD 1 0 < 192) ∨
    octets.val.getD 0 0 = 255 ∨ octets.val = List.replicate 16 0

/-- The IPv4-mapped form of an IPv4 address. -/
def mapped (octets : Octets 4) : Octets 16 :=
  ⟨List.replicate 10 0 ++ [0xff, 0xff] ++ octets.val, by simp [octets.property]⟩

def LocalAddress : IpAddress → Prop
  | .v4 octets => LocalV4 octets
  | .v6 octets => LocalV6 octets ∨ ∃ inner, octets = mapped inner ∧ LocalV4 inner

/-- A mask of the upper bits keeps the quotient by the lower ones. -/
theorem and_mask (low high : Nat) {value : Nat} (below : value < 2 ^ (low + high)) :
    value &&& (2 ^ high - 1) <<< low = value / 2 ^ low * 2 ^ low := by
  apply Nat.eq_of_testBit_eq
  intro bit
  rw [Nat.testBit_and, Nat.testBit_shiftLeft, ← Nat.shiftLeft_eq,
    Nat.testBit_shiftLeft, Nat.testBit_div_two_pow]
  by_cases inside : low ≤ bit
  · simp only [inside, Nat.sub_add_cancel inside]
    by_cases upper : bit < low + high
    · simp [show bit - low < high by omega]
    have zero : value.testBit bit = false :=
      Nat.testBit_lt_two_pow (Nat.lt_of_lt_of_le below
        (Nat.pow_le_pow_right Nat.two_pos (Nat.not_lt.mp upper)))
    simp [zero]
  · simp [inside]

theorem forall_uint8 {motive : UInt8 → Prop} (each : ∀ value < 256, motive (UInt8.ofNat value))
    (octet : UInt8) : motive octet := by
  have found := each octet.toNat octet.toNat_lt
  rwa [UInt8.ofNat_toNat] at found

theorem octets4_cases (octets : Octets 4) : ∃ a b c d, octets.val = [a, b, c, d] :=
  length_eq_four.mp octets.property

theorem hostOrder_eq {octets : Octets 4} {a b c d : UInt8} (bytes : octets.val = [a, b, c, d]) :
    IpAddress.hostOrder octets =
      ((a.toNat * 256 + b.toNat) * 256 + c.toNat) * 256 + d.toNat := by
  simp [IpAddress.hostOrder, bytes]

theorem prefix8_iff {a : Nat} (value : Nat) : a * 2 ^ 24 = value * 2 ^ 24 ↔ a = value := by
  omega

theorem prefix12_iff {a b : Nat} (bound : b < 256) :
    (a * 16 + b / 16) * 2 ^ 20 = 0xac100000 ↔ a = 172 ∧ 16 ≤ b ∧ b < 32 := by
  omega

theorem prefix16_iff {a b : Nat} (bound : b < 256) (first : Nat) {second : Nat}
    (bound' : second < 256) :
    (a * 256 + b) * 2 ^ 16 = (first * 256 + second) * 2 ^ 16 ↔ a = first ∧ b = second := by
  omega

/-- The masks of the source, as comparisons of octets. -/
theorem isLocalAddress_v4 (octets : Octets 4) :
    Socks5Handshake.isLocalAddress (.v4 octets) = true ↔ LocalV4 octets ∨ ReservedV4 octets := by
  obtain ⟨a, b, c, d, bytes⟩ := octets4_cases octets
  have word := hostOrder_eq bytes
  have boundA := a.toNat_lt
  have boundB := b.toNat_lt
  have boundC := c.toNat_lt
  have boundD := d.toNat_lt
  have below : IpAddress.hostOrder octets < 2 ^ 32 := by omega
  -- one comparison of octets for each test of the source
  have unspecified : IpAddress.hostOrder octets = 0 ↔
      a.toNat = 0 ∧ b.toNat = 0 ∧ c.toNat = 0 ∧ d.toNat = 0 := by omega
  have reserved : a.toNat / 16 * 2 ^ 28 = 0xf0000000 ↔ 240 ≤ a.toNat := by omega
  have loopback : a.toNat * 2 ^ 24 = 0x7f000000 ↔ a.toNat = 127 := prefix8_iff 127
  have ten : a.toNat * 2 ^ 24 = 0x0a000000 ↔ a.toNat = 10 := prefix8_iff 10
  have sixteen : (a.toNat * 256 + b.toNat) * 2 ^ 16 = 0xc0a80000 ↔
      a.toNat = 192 ∧ b.toNat = 168 := prefix16_iff boundB 192 (show 168 < 256 by decide)
  have linkLocal : (a.toNat * 256 + b.toNat) * 2 ^ 16 = 0xa9fe0000 ↔
      a.toNat = 169 ∧ b.toNat = 254 := prefix16_iff boundB 169 (show 254 < 256 by decide)
  have multicast : 0xe0000000 ≤ IpAddress.hostOrder octets ∧
      IpAddress.hostOrder octets < 0xf0000000 ↔ 224 ≤ a.toNat ∧ a.toNat < 240 := by omega
  have mask28 : IpAddress.hostOrder octets &&& 0xf0000000 = a.toNat / 16 * 2 ^ 28 := by
    refine (and_mask 28 4 below).trans ?_
    rw [show IpAddress.hostOrder octets / 2 ^ 28 = a.toNat / 16 by omega]
  have mask24 : IpAddress.hostOrder octets &&& 0xff000000 = a.toNat * 2 ^ 24 := by
    refine (and_mask 24 8 below).trans ?_
    rw [show IpAddress.hostOrder octets / 2 ^ 24 = a.toNat by omega]
  have mask20 : IpAddress.hostOrder octets &&& 0xfff00000 =
      (a.toNat * 16 + b.toNat / 16) * 2 ^ 20 := by
    refine (and_mask 20 12 below).trans ?_
    rw [show IpAddress.hostOrder octets / 2 ^ 20 = a.toNat * 16 + b.toNat / 16 by omega]
  have mask16 : IpAddress.hostOrder octets &&& 0xffff0000 =
      (a.toNat * 256 + b.toNat) * 2 ^ 16 := by
    refine (and_mask 16 16 below).trans ?_
    rw [show IpAddress.hostOrder octets / 2 ^ 16 = a.toNat * 256 + b.toNat by omega]
  simp only [Socks5Handshake.isLocalAddress, IpAddress.isValid, IpAddress.isLoopback,
    IpAddress.isPrivate, IpAddress.isLinkLocal, IpAddress.isMulticast, mask28, mask24, mask20,
    mask16, Bool.or_eq_true, Bool.and_eq_true, beq_iff_eq, decide_eq_true_eq, Bool.not_and,
    Bool.not_eq_true', bne_eq_false_iff_eq, unspecified, reserved, loopback, ten,
    prefix12_iff boundB, sixteen,
    linkLocal, multicast]
  simp only [LocalV4, ReservedV4, bytes, getD_cons_zero, UInt8.le_iff_toNat_le,
    UInt8.lt_iff_toNat_lt, ← UInt8.toNat_inj, UInt8.reduceToNat]
  simp only [or_assoc, or_comm, or_left_comm]

theorem unique_local_iff (octet : UInt8) :
    octet &&& 0xfe = 0xfc ↔ 252 ≤ octet ∧ octet < 254 := by
  revert octet
  exact forall_uint8 (by decide +kernel)

theorem link_local_iff (octet : UInt8) :
    octet &&& 0xc0 = 0x80 ↔ 128 ≤ octet ∧ octet < 192 := by
  revert octet
  exact forall_uint8 (by decide +kernel)

theorem octets16_cases (octets : Octets 16) :
    ∃ first last, octets.val = first ++ [last] ∧ first.length = 15 := by
  obtain ⟨bytes, width⟩ := octets
  have some' : bytes ≠ [] := by
    rintro rfl
    cases width
  refine ⟨bytes.dropLast, bytes.getLast some', (dropLast_concat_getLast some').symm, ?_⟩
  rw [length_dropLast, width]

theorem isLoopback_v6 (octets : Octets 16) :
    IpAddress.isLoopback (.v6 octets) = true ↔ octets.val = List.replicate 15 0 ++ [1] := by
  obtain ⟨first, last, bytes, width⟩ := octets16_cases octets
  have final : (first ++ [last]).getD 15 0 = last := by
    simp [← width]
  have zeros : (first.all (· == 0)) = true ↔ first = List.replicate 15 0 := by
    rw [eq_replicate_iff]
    simp [width]
  simp only [IpAddress.isLoopback, IpAddress.octet, bytes, final, Bool.and_eq_true, beq_iff_eq]
  rw [take_append_of_le_length (Nat.le_of_eq width.symm), take_of_length_le
    (Nat.le_of_eq width), zeros]
  constructor
  · rintro ⟨rfl, rfl⟩
    rfl
  · intro same
    obtain ⟨front, back⟩ := append_inj same (by simp [width])
    exact ⟨front, singleton_inj.mp back⟩

theorem not_isValid_v6 (octets : Octets 16) :
    (!IpAddress.isValid (.v6 octets)) = true ↔ octets.val = List.replicate 16 0 := by
  rw [eq_replicate_iff]
  simp [IpAddress.isValid, octets.property]

theorem isLocalAddress_v6 (octets : Octets 16) :
    Socks5Handshake.isLocalAddress (.v6 octets) = true ↔ LocalV6 octets := by
  have privateV6 : IpAddress.isPrivate (.v6 octets) = true ↔
      252 ≤ octets.val.getD 0 0 ∧ octets.val.getD 0 0 < 254 := by
    rw [← unique_local_iff]
    exact beq_iff_eq
  have linkV6 : IpAddress.isLinkLocal (.v6 octets) = true ↔ octets.val.getD 0 0 = 254 ∧
      128 ≤ octets.val.getD 1 0 ∧ octets.val.getD 1 0 < 192 := by
    rw [← link_local_iff]
    simp [IpAddress.isLinkLocal, IpAddress.octet]
  have multicastV6 : IpAddress.isMulticast (.v6 octets) = true ↔ octets.val.getD 0 0 = 255 :=
    beq_iff_eq
  simp only [Socks5Handshake.isLocalAddress, Bool.or_eq_true, not_isValid_v6, isLoopback_v6,
    privateV6, linkV6, multicastV6, LocalV6]
  simp only [or_assoc, or_comm, or_left_comm]

def lastLabel (name : Bytes) : Bytes := name.rtakeWhile (· != 46)

/-- The last label is `local` or `localhost`, in any case. -/
def LastLocal (name : Bytes) : Prop :=
  (lastLabel name).map asciiLower = ascii "local" ∨
    (lastLabel name).map asciiLower = ascii "localhost"

/-- A name without the dot that may end it. -/
def stripDot (name : Bytes) : Bytes := if name.getLast? = some 46 then name.dropLast else name

def LocalName (name : Bytes) : Prop := LastLocal (stripDot name)

theorem lastLabel_append {body back : Bytes} (last : (46 : UInt8) ∉ back) :
    lastLabel (body ++ 46 :: back) = back := by
  have all : ∀ c ∈ back.reverse, (c != 46) = true := by
    intro c member
    rw [bne_iff_ne]
    rintro rfl
    exact last (mem_reverse.mp member)
  rw [lastLabel, List.rtakeWhile, reverse_append, reverse_cons, append_assoc,
    takeWhile_append_of_pos all]
  simp

theorem lastLabel_of_notMem {name : Bytes} (noDot : (46 : UInt8) ∉ name) :
    lastLabel name = name := by
  rw [lastLabel, rtakeWhile_eq_self_iff]
  intro c member
  rw [bne_iff_ne]
  rintro rfl
  exact noDot member

/-- A name has no dot, or a last one. -/
theorem dot_cases (name : Bytes) :
    (46 : UInt8) ∉ name ∨ ∃ body back, name = body ++ 46 :: back ∧ (46 : UInt8) ∉ back := by
  by_cases dot : (46 : UInt8) ∈ name
  · obtain ⟨back, body, reversed, last⟩ := eq_append_cons_of_mem (mem_reverse.mpr dot)
    refine .inr ⟨body.reverse, back.reverse, ?_, by rwa [mem_reverse]⟩
    have turned := congrArg List.reverse reversed
    simpa using turned
  · exact .inl dot

theorem lower_ne_of_dot {name word : Bytes} (dot : (46 : UInt8) ∈ name)
    (noDot : (46 : UInt8) ∉ word) : name.map asciiLower ≠ word := by
  rintro rfl
  exact noDot (mem_map.mpr ⟨46, dot, rfl⟩)

/-- `is_local_name()` finds the local names except the bare label `local`. -/
theorem isLocalName_iff (name : Bytes) :
    Socks5Handshake.isLocalName name = true ↔
      LastLocal name ∧ name.map asciiLower ≠ ascii "local" := by
  have isHost : iequals name (ascii "localhost") = true ↔
      name.map asciiLower = ascii "localhost" := by
    rw [iequals_iff, show (ascii "localhost").map asciiLower = ascii "localhost" by decide]
  have lowerLocal : (ascii ".local").map asciiLower = 46 :: ascii "local" := by decide
  have lowerDotHost : (ascii ".localhost").map asciiLower = 46 :: ascii "localhost" := by decide
  rw [Socks5Handshake.isLocalName, LastLocal]
  rcases dot_cases name with noDot | ⟨body, back, rfl, last⟩
  · rw [rfind_eq_none.mpr noDot, lastLabel_of_notMem noDot]
    by_cases host : name.map asciiLower = ascii "localhost"
    · simp only [if_pos (isHost.mpr host), host]
      decide
    rw [if_neg (mt isHost.mp host)]
    constructor
    · exact nofun
    · rintro ⟨bare | same, other⟩
      · exact absurd bare other
      · exact absurd same host
  · have dot : (46 : UInt8) ∈ body ++ 46 :: back := by simp
    rw [if_neg (mt isHost.mp (lower_ne_of_dot dot (by decide))), rfind_append_cons last,
      lastLabel_append last]
    dsimp only
    rw [drop_left, Bool.or_eq_true, iequals_iff, iequals_iff, lowerLocal, lowerDotHost,
      map_cons, show asciiLower 46 = 46 from rfl, cons_inj_right, cons_inj_right]
    exact ⟨fun label => ⟨label, lower_ne_of_dot dot (by decide)⟩, And.left⟩

/-- A name that ends in a dot has an empty last label. -/
theorem isLocalName_of_dot {name : Bytes} (dot : name.getLast? = some 46) :
    Socks5Handshake.isLocalName name = false := by
  obtain ⟨body, rfl⟩ := getLast?_eq_some_iff.mp dot
  have empty : lastLabel (body ++ [46]) = [] := lastLabel_append nofun
  rw [← Bool.not_eq_true, isLocalName_iff, LastLocal, empty]
  rintro ⟨label | label, _⟩
  · exact absurd label (by decide)
  · exact absurd label (by decide)

/-- Of the local names, those with a dot at the end and the bare `local` are missed. -/
theorem isLocalName_of_localName {name : Bytes} (isLocal : LocalName name) :
    Socks5Handshake.isLocalName name = true ↔
      name.getLast? ≠ some 46 ∧ name.map asciiLower ≠ ascii "local" := by
  by_cases dot : name.getLast? = some 46
  · rw [isLocalName_of_dot dot]
    exact ⟨nofun, fun both => absurd dot both.1⟩
  rw [LocalName, stripDot, if_neg dot] at isLocal
  rw [isLocalName_iff]
  exact ⟨fun both => ⟨dot, both.2⟩, fun both => ⟨isLocal, both.2⟩⟩

/-- The target is the local machine or a peer on the local network. -/
def DenotesLocal (target : Bytes) : Prop :=
  (∃ address, literal target = some address ∧ LocalAddress address) ∨ LocalName target

/-- The spellings of a local peer that the constructor recognises: a literal that is
not an IPv4 address in IPv6 clothes, and a name that has neither a final dot nor
`local` as its only label. -/
def Recognised (target : Bytes) : Prop :=
  match literal (cString target) with
  | some (.v4 octets) => LocalV4 octets ∨ ReservedV4 octets
  | some (.v6 octets) => LocalV6 octets
  | none => target.getLast? ≠ some 46 ∧ target.map asciiLower ≠ ascii "local"

namespace Socks5

open Socks5Handshake

/-- The constructor fails and no byte is ever offered or acknowledged. -/
def Refuses (settings : ProxySettings) (command : Command) (target : Bytes) (port : UInt16) :
    Prop :=
  (create settings command target port).status = .failed ∧ ∀ calls : List Call,
    ((start settings command target port).calls calls).handshake.outgoing = [] ∧
      ((start settings command target port).calls calls).emitted = []

theorem refuses_iff (settings : ProxySettings) (command : Command) (target : Bytes)
    (port : UInt16) :
    Refuses settings command target port ↔
      Withheld settings target ∨ Inexpressible settings command target := by
  rcases create_cases settings command target port with ⟨why, failed, _⟩ | ⟨allowed, can, built⟩
  · refine ⟨fun _ => why, fun _ => ⟨failed, failed_silent settings command target port failed⟩⟩
  constructor
  · rintro ⟨failed, _⟩
    rw [built] at failed
    cases failed
  · rintro (withheld | cannot)
    · exact absurd withheld allowed
    · exact absurd cannot can

/-- A local peer is withheld exactly when its spelling is recognised. -/
theorem withheld_iff {settings : ProxySettings} (off : settings.allowPrivate = false)
    {target : Bytes} (some' : target ≠ []) (isLocal : DenotesLocal target) :
    Withheld settings target ↔ Recognised target := by
  rw [Withheld, ofString_ip some', Recognised]
  cases read : literal (cString target) with
  | some address =>
    cases address with
    | v4 octets => simp [off, isLocalAddress_v4]
    | v6 octets => simp [off, isLocalAddress_v6]
  | none =>
    have name : LocalName target := by
      rcases isLocal with ⟨address, found, _⟩ | name
      · have noNul : (0 : UInt8) ∉ target := fun nul => by
          rw [literal_eq_none_of_nul nul] at found
          cases found
        rw [cString_eq_self noNul, found] at read
        cases read
      · exact name
    simp [off, isLocalName_of_localName name]

theorem DenotesLocal.ne_nil {target : Bytes} (isLocal : DenotesLocal target) : target ≠ [] := by
  rintro rfl
  rcases isLocal with ⟨address, found, _⟩ | name | name
  · cases found
  · exact absurd name (by decide)
  · exact absurd name (by decide)

/-- With private targets off, a local peer is refused in the constructor exactly when its
spelling is recognised or its request cannot be expressed anyway. -/
theorem create_refuses_iff (settings : ProxySettings) (off : settings.allowPrivate = false)
    (command : Command) (target : Bytes) (port : UInt16) (isLocal : DenotesLocal target) :
    Refuses settings command target port ↔
      (Recognised target ∨ Inexpressible settings command target) := by
  rw [refuses_iff, withheld_iff off (DenotesLocal.ne_nil isLocal) isLocal]

/-- `printer.LOCAL` is refused. -/
theorem create_refuses_printer :
    Refuses { enabled := true, host := ascii "proxy", port := 1080 } .connect
      (ascii "printer.LOCAL") 631 := by
  refine (create_refuses_iff _ rfl .connect _ 631 (.inr (.inl (by decide)))).mpr (.inl ?_)
  exact ⟨by decide, by decide⟩

/-- The loopback address in IPv4-mapped form and `localhost` with its final dot both get
a greeting to send. -/
theorem not_refuses_mapped_loopback :
    let settings : ProxySettings := { enabled := true, host := ascii "proxy", port := 1080 }
    settings.allowPrivate = false ∧
      DenotesLocal (ascii "::ffff:127.0.0.1") ∧
      ¬ Refuses settings .connect (ascii "::ffff:127.0.0.1") 80 ∧
      (create settings .connect (ascii "::ffff:127.0.0.1") 80).outgoing = [5, 1, 0] ∧
      DenotesLocal (ascii "localhost.") ∧
      ¬ Refuses settings .connect (ascii "localhost.") 80 ∧
      (create settings .connect (ascii "localhost.") 80).outgoing = [5, 1, 0] := by
  refine ⟨rfl, .inl ⟨.v6 (mapped ⟨[127, 0, 0, 1], rfl⟩), by decide, .inr ⟨_, rfl, ?_⟩⟩, ?_,
    by decide, .inr (.inr (by decide)), ?_, by decide⟩
  · exact .inl rfl
  · exact fun refuses => absurd refuses.1 (by decide)
  · exact fun refuses => absurd refuses.1 (by decide)

end Socks5

end SamuraiFormal.Net
