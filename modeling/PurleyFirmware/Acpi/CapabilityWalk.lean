import PurleyFirmware.Foundation.PointerChase
import PurleyFirmware.Uefi.Status
import Mathlib.Data.BitVec

/-!
# Looking up a capability

`LocateCapRegBlock` and `LocatePciExpressCapRegBlock` of `AcpiPlatformVTDHooks.c` follow the linked
list of capabilities in a function's configuration space. The two differ in where the list starts,
in the test of a pointer before it is followed, in its mask, and in where an entry has its identifier
and its next pointer; `CapWalk` has these as fields and `CapWalk.loop` is the loop.

A walk is a chase (`CapWalk.loop_eq_chase`), so it ends exactly on a list that has the capability or
passes no offset twice. The neighbouring `PciBusDxe` breaks off at a capability that points to itself
and the PCH library at an identifier of all ones; here neither is done, and a function that is not
there reads as a list that never ends.

The extended walk also tests a pointer for zero *before* it masks the two low bits. A pointer of 1 to
3, which is a null pointer with reserved bits set, is followed to offset 0, where the vendor and
device identifiers are taken for an entry of the list.
-/

namespace PurleyFirmware.Acpi

/-! ### Configuration space -/

/-- The configuration space of a function, byte by byte. -/
abbrev ConfigSpace := BitVec 12 → BitVec 8

/-- `PciIo->Pci.Read` with `EfiPciIoWidthUint16`. -/
def ConfigSpace.readUint16 (config : ConfigSpace) (offset : BitVec 12) : BitVec 16 :=
  config (offset + 1) ++ config offset

/-- `PciIo->Pci.Read` with `EfiPciIoWidthUint32`. -/
def ConfigSpace.readUint32 (config : ConfigSpace) (offset : BitVec 12) : BitVec 32 :=
  config (offset + 3) ++ config (offset + 2) ++ config (offset + 1) ++ config offset

/-! ### Walks -/

/-- What a walk returns: the offset of the capability, and of the one after it. -/
structure CapRegBlock (w : ℕ) where
  offset : BitVec w
  nextRegBlock : BitVec w
  deriving DecidableEq

/-- What the two walks differ in. `w` is the width of `CapabilityPtr`. -/
structure CapWalk (w : ℕ) where
  /-- `CapabilityPtr` before the loop. -/
  first : BitVec w
  /-- The condition of the loop. -/
  inWindow : BitVec w → Bool
  /-- The mask to DWORD alignment. -/
  align : BitVec w
  /-- The entry at an offset has the identifier looked for. -/
  hasId : BitVec w → Bool
  /-- The next pointer of the entry at an offset. -/
  next : BitVec w → BitVec w

namespace CapWalk

variable {w : ℕ} (W : CapWalk w)

/-- The loop of both functions, with a bound on the entries looked at. -/
def loop : ℕ → BitVec w → Option (Except EfiStatus (CapRegBlock w))
  | 0, capabilityPtr => if W.inWindow capabilityPtr then none else some (.error .notFound)
  | fuel + 1, capabilityPtr =>
    if W.inWindow capabilityPtr then
      let capabilityPtr := capabilityPtr &&& W.align
      if W.hasId capabilityPtr then some (.ok ⟨capabilityPtr, W.next capabilityPtr⟩)
      else loop fuel (W.next capabilityPtr)
    else some (.error .notFound)

/-- The function: the loop from the first pointer. -/
def locate (fuel : ℕ) : Option (Except EfiStatus (CapRegBlock w)) := W.loop fuel W.first

/-- The offset the code reads at for a pointer, if it reads at all. -/
def follow (capabilityPtr : BitVec w) : Option (BitVec w) :=
  if W.inWindow capabilityPtr then some (capabilityPtr &&& W.align) else none

/-- The link of the code from one offset to the next. -/
def link (offset : BitVec w) : Option (BitVec w) := W.follow (W.next offset)

/-- What the outcome of a chase is to the caller. -/
def resultOf : Option (BitVec w) → Except EfiStatus (CapRegBlock w)
  | none => .error .notFound
  | some offset => .ok ⟨offset, W.next offset⟩

/-- **The walk is a chase.** -/
theorem loop_eq_chase (fuel : ℕ) (capabilityPtr : BitVec w) :
    W.loop fuel capabilityPtr
      = (chase W.link W.hasId fuel (W.follow capabilityPtr)).map W.resultOf := by
  induction fuel generalizing capabilityPtr with
  | zero =>
    by_cases hwin : W.inWindow capabilityPtr = true
    · rw [loop, follow, if_pos hwin, if_pos hwin, chase, Option.map_none]
    · rw [loop, follow, if_neg hwin, if_neg hwin, chase, Option.map_some, resultOf]
  | succ fuel ih =>
    by_cases hwin : W.inWindow capabilityPtr = true
    · rw [loop, follow, if_pos hwin, if_pos hwin, chase]
      dsimp only
      by_cases hid : W.hasId (capabilityPtr &&& W.align) = true
      · rw [if_pos hid, if_pos hid, Option.map_some, resultOf]
      · rw [if_neg hid, if_neg hid, ih, link]
    · rw [loop, follow, if_neg hwin, if_neg hwin, chase, Option.map_some, resultOf]

/-! ### What a lookup owes its caller -/

/-- A lookup of the capability on a list of offsets: it ends, it succeeds exactly if the list has
the capability, and then with the offset of the first entry that is one. -/
structure LocatesFirst (next : BitVec w → Option (BitVec w)) (start : Option (BitVec w)) : Prop where
  /-- The walk ends. -/
  ends : ∃ fuel r, W.locate fuel = some r
  /-- Success, and on which lists. -/
  success_iff : (∃ fuel block, W.locate fuel = some (.ok block)) ↔
    ∃ offset, OnChain next start offset ∧ W.hasId offset = true
  /-- The offset returned. -/
  first : ∀ fuel block, W.locate fuel = some (.ok block) →
    FirstHit next W.hasId start block.offset

variable {W}

/-- A result of the walk is the outcome of the chase. -/
theorem locate_eq_some_iff {fuel : ℕ} {r : Except EfiStatus (CapRegBlock w)} :
    W.locate fuel = some r ↔
      ∃ o, chase W.link W.hasId fuel (W.follow W.first) = some o ∧ W.resultOf o = r := by
  rw [locate, loop_eq_chase, Option.map_eq_some_iff]

/-- A walk that succeeds has met the first entry of the code's chain with the identifier. -/
theorem firstHit_of_locate {fuel : ℕ} {block : CapRegBlock w}
    (h : W.locate fuel = some (.ok block)) :
    FirstHit W.link W.hasId (W.follow W.first) block.offset := by
  obtain ⟨o, ho, hr⟩ := locate_eq_some_iff.1 h
  rcases firstHit_or_end_of_chase ho with ⟨a, rfl, ha⟩ | ⟨rfl, -, -⟩
  · rw [resultOf] at hr
    obtain rfl := Except.ok.inj hr
    exact ha
  · cases hr

/-- The walk meets the first entry of its chain with the identifier. -/
theorem locate_of_firstHit {offset : BitVec w}
    (h : FirstHit W.link W.hasId (W.follow W.first) offset) :
    ∃ fuel, W.locate fuel = some (.ok ⟨offset, W.next offset⟩) := by
  obtain ⟨fuel, hfuel⟩ := chase_of_firstHit h
  exact ⟨fuel, locate_eq_some_iff.2 ⟨some offset, hfuel, rfl⟩⟩

/-- **Walks that end.** -/
theorem locate_ends_iff :
    (∃ fuel r, W.locate fuel = some r) ↔
      (∃ offset, OnChain W.link (W.follow W.first) offset ∧ W.hasId offset = true) ∨
        AcyclicChain W.link (W.follow W.first) := by
  have hfinite : Finite (BitVec w) := Finite.of_equiv _ BitVec.equivFin.toEquiv.symm
  have hchase : (∃ fuel o, chase W.link W.hasId fuel (W.follow W.first) = some o) ↔ _ :=
    exists_chase_iff
  rw [← hchase]
  constructor
  · rintro ⟨fuel, r, h⟩
    obtain ⟨o, ho, -⟩ := locate_eq_some_iff.1 h
    exact ⟨fuel, o, ho⟩
  · rintro ⟨fuel, o, ho⟩
    exact ⟨fuel, W.resultOf o, locate_eq_some_iff.2 ⟨o, ho, rfl⟩⟩

/-- Success, read off the chain the code follows. -/
theorem locate_success_iff :
    (∃ fuel block, W.locate fuel = some (.ok block)) ↔
      ∃ offset, OnChain W.link (W.follow W.first) offset ∧ W.hasId offset = true := by
  constructor
  · rintro ⟨fuel, block, h⟩
    obtain ⟨n, hn, hid, -⟩ := firstHit_of_locate h
    exact ⟨block.offset, ⟨n, hn⟩, hid⟩
  · rintro ⟨offset, hon, hid⟩
    obtain ⟨first, hfirst⟩ := exists_firstHit hon hid
    obtain ⟨fuel, hfuel⟩ := locate_of_firstHit hfirst
    exact ⟨fuel, _, hfuel⟩

/-- On the chain that the code follows, ending is all that can fail. -/
theorem locatesFirst_link_iff :
    W.LocatesFirst W.link (W.follow W.first) ↔
      (∃ offset, OnChain W.link (W.follow W.first) offset ∧ W.hasId offset = true) ∨
        AcyclicChain W.link (W.follow W.first) := by
  constructor
  · intro h
    exact locate_ends_iff.1 h.ends
  · intro h
    exact ⟨locate_ends_iff.2 h, locate_success_iff, fun _ _ ↦ firstHit_of_locate⟩

end CapWalk

/-! ### The two functions -/

section

variable (config : ConfigSpace)

/-- `LocateCapRegBlock`. A `UINT8` is always below `0x100`, the second half of its loop
condition. -/
def locateCapRegBlock (capID : BitVec 8) : CapWalk 8 where
  first := (config.readUint32 0x34).setWidth 8
  inWindow capabilityPtr := 0x40 ≤ capabilityPtr
  align := 0xFC
  hasId capabilityPtr := (config.readUint16 (capabilityPtr.setWidth 12)).setWidth 8 == capID
  next capabilityPtr :=
    (config.readUint16 (capabilityPtr.setWidth 12) >>> 8).setWidth 8 &&& 0xFC

/-- `LocatePciExpressCapRegBlock`. -/
def locatePciExpressCapRegBlock (capID : BitVec 16) : CapWalk 32 where
  first := 0x100
  inWindow capabilityPtr := capabilityPtr != 0 && decide (capabilityPtr < 0x1000)
  align := 0xFFC
  hasId capabilityPtr := (config.readUint32 (capabilityPtr.setWidth 12)).setWidth 16 == capID
  next capabilityPtr := (config.readUint32 (capabilityPtr.setWidth 12) >>> 20) &&& 0xFFF

/-! ### The lists themselves -/

/-- The capability list: a pointer is what is left of it without its two reserved bits, and below
`0x40` it ends the list. -/
def capListPointer (capabilityPtr : BitVec 8) : Option (BitVec 8) :=
  if 0x40 ≤ capabilityPtr &&& 0xFC then some (capabilityPtr &&& 0xFC) else none

/-- The list of extended capabilities: a pointer is what is left of it without its two reserved
bits, and zero ends the list. -/
def extCapListPointer (capabilityPtr : BitVec 32) : Option (BitVec 32) :=
  if capabilityPtr &&& 0xFFC ≠ 0 then some (capabilityPtr &&& 0xFFC) else none

/-- The offset after `offset` on the capability list. -/
def capListNext (offset : BitVec 8) : Option (BitVec 8) :=
  capListPointer ((config.readUint16 (offset.setWidth 12) >>> 8).setWidth 8)

/-- The first offset of the capability list. -/
def capListFirst : Option (BitVec 8) := capListPointer ((config.readUint32 0x34).setWidth 8)

/-- The offset after `offset` on the list of extended capabilities. -/
def extCapListNext (offset : BitVec 32) : Option (BitVec 32) :=
  extCapListPointer (config.readUint32 (offset.setWidth 12) >>> 20)

/-- The first offset of the list of extended capabilities. -/
def extCapListFirst : Option (BitVec 32) := extCapListPointer 0x100

/-! ### Where the code's chain is the list -/

/-- A pointer of the capability list is followed as it should be. -/
theorem follow_eq_capListPointer (capID : BitVec 8) (capabilityPtr : BitVec 8) :
    (locateCapRegBlock config capID).follow capabilityPtr = capListPointer capabilityPtr := by
  change (if decide (0x40 ≤ capabilityPtr) = true then some (capabilityPtr &&& 0xFC) else none)
    = if 0x40 ≤ capabilityPtr &&& 0xFC then some (capabilityPtr &&& 0xFC) else none
  revert capabilityPtr
  decide

/-- The second mask of a pointer changes nothing. -/
theorem capListPointer_and (capabilityPtr : BitVec 8) :
    capListPointer (capabilityPtr &&& 0xFC) = capListPointer capabilityPtr := by
  rw [capListPointer, capListPointer, BitVec.and_assoc]
  rfl

theorem link_eq_capListNext (capID : BitVec 8) :
    (locateCapRegBlock config capID).link = capListNext config := by
  funext offset
  rw [CapWalk.link, follow_eq_capListPointer]
  exact capListPointer_and _

theorem follow_first_eq_capListFirst (capID : BitVec 8) :
    (locateCapRegBlock config capID).follow (locateCapRegBlock config capID).first
      = capListFirst config :=
  follow_eq_capListPointer config capID _

/-- Twelve bits are left of an extended entry's next pointer. -/
theorem extNext_lt (entry : BitVec 32) : entry >>> 20 < 0x1000#32 := by
  have hlt := entry.isLt
  rw [BitVec.lt_def, BitVec.toNat_ushiftRight, Nat.shiftRight_eq_div_pow]
  simp only [BitVec.toNat_ofNat, Nat.reducePow, Nat.reduceMod]
  omega

theorem extNext_and (entry : BitVec 32) : (entry >>> 20) &&& (0xFFF : BitVec 32) = entry >>> 20 := by
  have hlt := extNext_lt entry
  rw [BitVec.lt_def] at hlt
  apply BitVec.eq_of_toNat_eq
  rw [BitVec.toNat_and]
  exact Nat.and_two_pow_sub_one_of_lt_two_pow (n := 12) hlt

/-- A link of the code on the extended list is the list's own, or the list ends here and the code
goes to offset 0. -/
theorem extLink_cases (capID : BitVec 16) (offset : BitVec 32) :
    (locatePciExpressCapRegBlock config capID).link offset = extCapListNext config offset ∨
      (extCapListNext config offset = none ∧
        (locatePciExpressCapRegBlock config capID).link offset = some 0) := by
  have hlink : (locatePciExpressCapRegBlock config capID).link offset
      = (locatePciExpressCapRegBlock config capID).follow
          (config.readUint32 (offset.setWidth 12) >>> 20 &&& 0xFFF) := rfl
  rw [hlink, extNext_and, extCapListNext, CapWalk.follow, extCapListPointer]
  have hlt := extNext_lt (config.readUint32 (offset.setWidth 12))
  generalize config.readUint32 (offset.setWidth 12) >>> 20 = capabilityPtr at hlt ⊢
  change ((if (capabilityPtr != 0 && decide (capabilityPtr < 0x1000)) = true then
    some (capabilityPtr &&& 0xFFC) else none) = _) ∨ (_ ∧ (if (capabilityPtr != 0 &&
      decide (capabilityPtr < 0x1000)) = true then some (capabilityPtr &&& 0xFFC) else none) = _)
  by_cases hzero : capabilityPtr = 0
  · left
    subst hzero
    rfl
  · have hwin : (capabilityPtr != 0 && decide (capabilityPtr < 0x1000)) = true := by
      rw [Bool.and_eq_true, bne_iff_ne, decide_eq_true_eq]
      exact ⟨hzero, hlt⟩
    rw [if_pos hwin]
    by_cases hmask : capabilityPtr &&& 0xFFC = 0
    · right
      rw [if_neg (not_not.2 hmask), hmask]
      exact ⟨rfl, rfl⟩
    · left
      rw [if_pos hmask]

theorem follow_first_eq_extCapListFirst (capID : BitVec 16) :
    (locatePciExpressCapRegBlock config capID).follow
      (locatePciExpressCapRegBlock config capID).first = extCapListFirst := rfl

end

/-! ### When the lookups are right -/

section

variable (config : ConfigSpace)

/-- The code's chain of extended capabilities is the list, and where that ends in a pointer of 1 to 3
what it meets from offset 0 on. -/
theorem onChain_extLink (capID : BitVec 16) {offset : BitVec 32}
    (h : OnChain (locatePciExpressCapRegBlock config capID).link extCapListFirst offset) :
    OnChain (extCapListNext config) extCapListFirst offset ∨
      (OnChain (locatePciExpressCapRegBlock config capID).link extCapListFirst 0 ∧
        OnChain (locatePciExpressCapRegBlock config capID).link (some 0) offset) := by
  obtain ⟨n, hn⟩ := h
  induction n generalizing offset with
  | zero => exact .inl ⟨0, hn⟩
  | succ n ih =>
    obtain ⟨previous, hprevious, hlink⟩ := Option.bind_eq_some_iff.1 hn
    rcases ih hprevious with ⟨m, hm⟩ | ⟨hzero, m, hm⟩
    · rcases extLink_cases config capID previous with hlist | ⟨-, hstray⟩
      · exact .inl ⟨m + 1, by rw [hop, hm, Option.bind_some, ← hlist, hlink]⟩
      · obtain rfl : 0 = offset := Option.some.inj (hstray.symm.trans hlink)
        exact .inr ⟨⟨n + 1, hn⟩, 0, rfl⟩
    · exact .inr ⟨hzero, m + 1, by rw [hop, hm, Option.bind_some, hlink]⟩

/-- The code has all the links of the list. -/
theorem extLink_of_extCapListNext (capID : BitVec 16) (a b : BitVec 32)
    (h : extCapListNext config a = some b) :
    (locatePciExpressCapRegBlock config capID).link a = some b := by
  rcases extLink_cases config capID a with heq | ⟨hend, -⟩
  · exact heq.trans h
  · rw [hend] at h
    cases h

/-- The lookup of a capability is right exactly on a list that has it or passes no offset twice. -/
theorem locatesFirst_capList_iff (capID : BitVec 8) :
    (locateCapRegBlock config capID).LocatesFirst (capListNext config) (capListFirst config) ↔
      (∃ offset, OnChain (capListNext config) (capListFirst config) offset ∧
        (locateCapRegBlock config capID).hasId offset = true) ∨
      AcyclicChain (capListNext config) (capListFirst config) := by
  rw [← link_eq_capListNext config capID, ← follow_first_eq_capListFirst config capID]
  exact CapWalk.locatesFirst_link_iff

/-- The lookup of an extended capability is right exactly on a list that has it, or where the code
passes no offset twice and, should a pointer of 1 to 3 send it to offset 0, does not find the
identifier there or beyond. -/
theorem locatesFirst_extCapList_iff (capID : BitVec 16) :
    (locatePciExpressCapRegBlock config capID).LocatesFirst (extCapListNext config)
        extCapListFirst ↔
      (∃ offset, OnChain (extCapListNext config) extCapListFirst offset ∧
        (locatePciExpressCapRegBlock config capID).hasId offset = true) ∨
      (AcyclicChain (locatePciExpressCapRegBlock config capID).link extCapListFirst ∧
        (OnChain (locatePciExpressCapRegBlock config capID).link extCapListFirst 0 →
          ∀ offset, OnChain (locatePciExpressCapRegBlock config capID).link (some 0) offset →
            (locatePciExpressCapRegBlock config capID).hasId offset = false)) := by
  have hlinks := extLink_of_extCapListNext config capID
  have hends := (locatePciExpressCapRegBlock config capID).locate_ends_iff
  have hsuccess := (locatePciExpressCapRegBlock config capID).locate_success_iff
  rw [follow_first_eq_extCapListFirst] at hends hsuccess
  -- an entry of the list with the identifier settles every part
  have hlist : (∃ offset, OnChain (extCapListNext config) extCapListFirst offset ∧
      (locatePciExpressCapRegBlock config capID).hasId offset = true) →
      (locatePciExpressCapRegBlock config capID).LocatesFirst (extCapListNext config)
        extCapListFirst := by
    rintro ⟨offset, ⟨n, hn⟩, hid⟩
    have hcode : OnChain _ extCapListFirst offset := ⟨n, hop_of_links hlinks hn⟩
    refine ⟨hends.2 (.inl ⟨offset, hcode, hid⟩),
      iff_of_true (hsuccess.2 ⟨offset, hcode, hid⟩) ⟨offset, ⟨n, hn⟩, hid⟩, ?_⟩
    intro fuel block hblock
    have hfirst := CapWalk.firstHit_of_locate hblock
    rw [follow_first_eq_extCapListFirst] at hfirst
    exact hfirst.of_links hlinks ⟨n, hn⟩ hid
  constructor
  · intro h
    by_cases hhas : ∃ offset, OnChain (extCapListNext config) extCapListFirst offset ∧
        (locatePciExpressCapRegBlock config capID).hasId offset = true
    · exact .inl hhas
    · right
      have hmiss := fun hcode ↦ hhas (h.success_iff.1 (hsuccess.2 hcode))
      refine ⟨(hends.1 h.ends).resolve_left hmiss, fun ⟨m, hzero⟩ offset ⟨n, hn⟩ ↦ ?_⟩
      by_contra hid
      refine hmiss ⟨offset, ⟨m + n, ?_⟩, Bool.eq_true_of_not_eq_false hid⟩
      rw [hop_add, hzero, hn]
  · rintro (hhas | ⟨hacyclic, hstray⟩)
    · exact hlist hhas
    · by_cases hhas : ∃ offset, OnChain (extCapListNext config) extCapListFirst offset ∧
          (locatePciExpressCapRegBlock config capID).hasId offset = true
      · exact hlist hhas
      · have hmiss : ¬ ∃ fuel block,
            (locatePciExpressCapRegBlock config capID).locate fuel = some (.ok block) := by
          rw [hsuccess]
          rintro ⟨offset, hon, hid⟩
          rcases onChain_extLink config capID hon with hlist | ⟨hzero, hbeyond⟩
          · exact hhas ⟨offset, hlist, hid⟩
          · rw [hstray hzero offset hbeyond] at hid
            cases hid
        exact ⟨hends.2 (.inr hacyclic), iff_of_false hmiss hhas,
          fun fuel block h ↦ absurd ⟨fuel, block, h⟩ hmiss⟩

/-- **The capability lookups.** -/
theorem locatesFirst_iff (capID : BitVec 8) (extCapID : BitVec 16) :
    ((locateCapRegBlock config capID).LocatesFirst (capListNext config) (capListFirst config) ∧
      (locatePciExpressCapRegBlock config extCapID).LocatesFirst (extCapListNext config)
        extCapListFirst) ↔
    ((∃ offset, OnChain (capListNext config) (capListFirst config) offset ∧
        (locateCapRegBlock config capID).hasId offset = true) ∨
      AcyclicChain (capListNext config) (capListFirst config)) ∧
    ((∃ offset, OnChain (extCapListNext config) extCapListFirst offset ∧
        (locatePciExpressCapRegBlock config extCapID).hasId offset = true) ∨
      (AcyclicChain (locatePciExpressCapRegBlock config extCapID).link extCapListFirst ∧
        (OnChain (locatePciExpressCapRegBlock config extCapID).link extCapListFirst 0 →
          ∀ offset, OnChain (locatePciExpressCapRegBlock config extCapID).link (some 0) offset →
            (locatePciExpressCapRegBlock config extCapID).hasId offset = false))) := by
  rw [locatesFirst_capList_iff, locatesFirst_extCapList_iff]

end

/-! ### A function that is not there -/

/-- What an absent function reads as. -/
def absentFunction : ConfigSpace := fun _ ↦ 0xFF

/-- The walk over an absent function goes to offset `0xFC` and stays there. -/
theorem loop_absentFunction (fuel : ℕ) :
    (locateCapRegBlock absentFunction 0x10).loop fuel 0xFC = none := by
  induction fuel with
  | zero => rfl
  | succ fuel ih =>
    have hwin : (locateCapRegBlock absentFunction 0x10).inWindow 0xFC = true := rfl
    have hid : (locateCapRegBlock absentFunction 0x10).hasId 0xFC = false := rfl
    have hnext : (locateCapRegBlock absentFunction 0x10).next 0xFC = 0xFC := rfl
    have halign : (0xFC : BitVec 8) &&& (locateCapRegBlock absentFunction 0x10).align = 0xFC := rfl
    rw [CapWalk.loop, if_pos hwin, halign]
    dsimp only
    rw [hid, hnext, ih]
    rfl

/-- The lookup of a PCI Express capability never returns for a function that is not there. -/
theorem not_locatesFirst_absentFunction :
    ¬ ((locateCapRegBlock absentFunction 0x10).LocatesFirst (capListNext absentFunction)
        (capListFirst absentFunction) ∧
      (locatePciExpressCapRegBlock absentFunction 0x0D).LocatesFirst
        (extCapListNext absentFunction) extCapListFirst) := by
  rintro ⟨h, -⟩
  obtain ⟨fuel, r, hr⟩ := h.ends
  have hfirst : (locateCapRegBlock absentFunction 0x10).locate (fuel + 1) = none :=
    loop_absentFunction fuel
  rw [CapWalk.locate, CapWalk.loop_eq_chase] at hr hfirst
  obtain ⟨o, ho, -⟩ := Option.map_eq_some_iff.1 hr
  rw [chase_mono fuel.le_succ ho] at hfirst
  cases hfirst

end PurleyFirmware.Acpi
