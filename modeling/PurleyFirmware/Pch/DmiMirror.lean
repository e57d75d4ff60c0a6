import PurleyFirmware.Foundation.Runs
import PurleyFirmware.Pch.CycleDecoding

/-!
# The copies in the DMI unit

Each decode register and its copy should hold the same value at all times. Every setter writes both,
so agreement is a matter of one call: `mirrorsAgree_iff` says for each call whether it keeps it. All
calls do but one kind. The fixed I/O enables of the second slave are added to what the source
register holds, while the copy gets them alone.

A later call does not repair the copy when it finds the source register as it wants it: the test for
an identical setting looks at the source register only.
-/

namespace PurleyFirmware.Pch

/-- Every copy holds what its source register holds. -/
structure MirrorsAgree (s : DecodeRegisters) : Prop where
  /-- Generic I/O ranges. -/
  lpclgir : ∀ i, s.lpclgir i = s.genDec i
  /-- Generic I/O range of the second slave. -/
  segir : s.segir = s.pccs1gir1
  /-- Generic memory range. -/
  lpcgmr : s.lpcgmr = s.lgmr
  /-- Generic memory range of the second slave. -/
  segmr : s.segmr = s.pccs1gmr1
  /-- BIOS decode enables, of the device that holds the BIOS. -/
  lpcbde : s.lpcbde = if s.BiosOnLpc then s.lpcBde else s.spiBde
  /-- I/O decode ranges. -/
  lpciod : s.lpciod = s.iod
  /-- Fixed I/O enables. -/
  lpcioe : s.lpcioe = s.ioe

/-- A call of one of the setters. -/
inductive DecodeCall
  | genIoRange (address : BitVec 16) (length : BitVec 64) (slaveDevice : SlaveDevice)
  | memRange (address : BitVec 32) (slaveDevice : SlaveDevice)
  | biosDecodeEnable (biosDecodeEnable : BitVec 16)
  | ioDecodeRanges (lpcIoDecodeRanges : BitVec 16)
  | ioEnableDecoding (lpcIoEnableDecoding : BitVec 16) (slaveDevice : SlaveDevice)

/-- The registers after a call. -/
def decodeNext (s : DecodeRegisters) : DecodeCall → DecodeRegisters
  | .genIoRange address length slaveDevice => (pchLpcGenIoRangeSet s address length slaveDevice).2
  | .memRange address slaveDevice => (pchLpcMemRangeSet s address slaveDevice).2
  | .biosDecodeEnable biosDecodeEnable => (pchBiosDecodeEnableSet s biosDecodeEnable).2
  | .ioDecodeRanges lpcIoDecodeRanges => (pchLpcIoDecodeRangesSet s lpcIoDecodeRanges).2
  | .ioEnableDecoding lpcIoEnableDecoding slaveDevice =>
    (pchLpcIoEnableDecodingSet s lpcIoEnableDecoding slaveDevice).2

/-- The copy of the fixed I/O enables will be right: the call is for the first slave, or it finds
its setting in place, or the registers are locked; or else the source register ends up with the
setting of this call. For the second slave that means that every enable already there is among
them. -/
def MirrorSafe (s : DecodeRegisters) : DecodeCall → Prop
  | .ioEnableDecoding lpcIoEnableDecoding slaveDevice =>
    slaveDevice = lpcEspiFirstSlave ∨ lpcIoEnableDecoding = s.pccs1iore ∨ s.Locked ∨
      (if slaveDevice = espiSecondarySlave then s.ioe ||| lpcIoEnableDecoding else s.ioe) =
        lpcIoEnableDecoding
  | _ => True

instance (s : DecodeRegisters) (call : DecodeCall) : Decidable (MirrorSafe s call) := by
  cases call <;> unfold MirrorSafe <;> infer_instance

section Setters

variable {s : DecodeRegisters}

/-- Programming a generic I/O range in both places. -/
theorem MirrorsAgree.update_genDec (h : MirrorsAgree s) (i : Fin pchLpcGenIoRangeMax)
    (data32 : BitVec 32) : MirrorsAgree { s with
      genDec := Function.update s.genDec i data32
      lpclgir := Function.update s.lpclgir i data32 } where
  __ := h
  lpclgir j := by
    show Function.update s.lpclgir i data32 j = Function.update s.genDec i data32 j
    rw [Function.update_apply, Function.update_apply, h.lpclgir]

theorem MirrorsAgree.pchLpcGenIoRangeSet (h : MirrorsAgree s) (address : BitVec 16)
    (length : BitVec 64) (slaveDevice : SlaveDevice) :
    MirrorsAgree (pchLpcGenIoRangeSet s address length slaveDevice).2 := by
  rw [Pch.pchLpcGenIoRangeSet]
  split
  · exact h
  · split
    · -- the first slave: at most one register and its copy are programmed
      split
      · exact h
      · exact h
      · split
        · exact h
        · exact h.update_genDec _ _
    · dsimp only
      split
      · exact h
      · split
        · exact h
        · exact { h with segir := rfl }

theorem MirrorsAgree.pchLpcMemRangeSet (h : MirrorsAgree s) (address : BitVec 32)
    (slaveDevice : SlaveDevice) :
    MirrorsAgree (pchLpcMemRangeSet s address slaveDevice).2 := by
  rw [Pch.pchLpcMemRangeSet]
  split
  · exact h
  · split
    · exact h
    · split
      · exact { h with segmr := rfl }
      · exact { h with lpcgmr := rfl }

theorem MirrorsAgree.pchBiosDecodeEnableSet (h : MirrorsAgree s) (biosDecodeEnable : BitVec 16) :
    MirrorsAgree (pchBiosDecodeEnableSet s biosDecodeEnable).2 := by
  rw [Pch.pchBiosDecodeEnableSet]
  split
  · exact h
  · split
    · exact { h with lpcbde := (if_pos ‹_›).symm }
    · exact { h with lpcbde := (if_neg ‹_›).symm }

theorem MirrorsAgree.pchLpcIoDecodeRangesSet (h : MirrorsAgree s) (lpcIoDecodeRanges : BitVec 16) :
    MirrorsAgree (pchLpcIoDecodeRangesSet s lpcIoDecodeRanges).2 := by
  rw [Pch.pchLpcIoDecodeRangesSet]
  split
  · exact h
  · split
    · exact h
    · exact { h with lpciod := rfl }

/-- **The one setter that may part a copy from its source.** -/
theorem mirrorsAgree_pchLpcIoEnableDecodingSet_iff (h : MirrorsAgree s)
    (lpcIoEnableDecoding : BitVec 16) (slaveDevice : SlaveDevice) :
    MirrorsAgree (pchLpcIoEnableDecodingSet s lpcIoEnableDecoding slaveDevice).2 ↔
      MirrorSafe s (.ioEnableDecoding lpcIoEnableDecoding slaveDevice) := by
  have hsecond : espiSecondarySlave ≠ lpcEspiFirstSlave := by decide
  rw [pchLpcIoEnableDecodingSet, MirrorSafe]
  dsimp only
  by_cases hfirst : slaveDevice = lpcEspiFirstSlave
  · refine iff_of_true ?_ (Or.inl hfirst)
    have hnot : slaveDevice ≠ espiSecondarySlave := by
      rw [hfirst]
      exact hsecond.symm
    rw [if_pos hfirst, if_pos hfirst, if_neg hnot]
    split
    · exact h
    · split
      · exact h
      · exact { h with lpcioe := rfl }
  · rw [if_neg hfirst, if_neg hfirst, or_iff_right hfirst]
    split
    · exact iff_of_true h (Or.inl ‹_›)
    · rw [or_iff_right ‹_›]
      split
      · exact iff_of_true h (Or.inl ‹_›)
      · rw [or_iff_right ‹_›]
        split
        · refine ⟨fun hnew ↦ ?_, fun hsafe ↦ { h with lpcioe := ?_ }⟩
          · exact (BitVec.or_comm _ _).trans hnew.lpcioe.symm
          · exact hsafe.symm.trans (BitVec.or_comm _ _)
        · exact ⟨fun hnew ↦ hnew.lpcioe.symm, fun hsafe ↦ { h with lpcioe := hsafe.symm }⟩

/-- **Call by call.** From agreement, a call keeps it exactly when it is safe. -/
theorem mirrorsAgree_decodeNext_iff (h : MirrorsAgree s) (call : DecodeCall) :
    MirrorsAgree (decodeNext s call) ↔ MirrorSafe s call := by
  cases call with
  | genIoRange address length slaveDevice =>
    exact iff_of_true (h.pchLpcGenIoRangeSet address length slaveDevice) trivial
  | memRange address slaveDevice =>
    exact iff_of_true (h.pchLpcMemRangeSet address slaveDevice) trivial
  | biosDecodeEnable biosDecodeEnable =>
    exact iff_of_true (h.pchBiosDecodeEnableSet biosDecodeEnable) trivial
  | ioDecodeRanges lpcIoDecodeRanges =>
    exact iff_of_true (h.pchLpcIoDecodeRangesSet lpcIoDecodeRanges) trivial
  | ioEnableDecoding lpcIoEnableDecoding slaveDevice =>
    exact mirrorsAgree_pchLpcIoEnableDecodingSet_iff h lpcIoEnableDecoding slaveDevice

end Setters

/-! ### Call sequences -/

/-- **Exactly which call sequences keep the copies right.** Started with every copy right, every
call leaves every copy right if and only if every call is safe where it is made. -/
theorem along_mirrorsAgree_iff {s : DecodeRegisters} (h : MirrorsAgree s) (calls : List DecodeCall) :
    Along decodeNext (fun s call ↦ MirrorsAgree (decodeNext s call)) s calls ↔
      Along decodeNext MirrorSafe s calls := by
  have hpres : ∀ (s : DecodeRegisters) (call : DecodeCall), MirrorsAgree s → True →
      MirrorsAgree (decodeNext s call) → MirrorsAgree (decodeNext s call) :=
    fun _ _ _ _ hnext ↦ hnext
  have hiff : ∀ (s : DecodeRegisters) (call : DecodeCall), MirrorsAgree s → True →
      (MirrorsAgree (decodeNext s call) ↔ MirrorSafe s call) :=
    fun _ call hs _ ↦ mirrorsAgree_decodeNext_iff hs call
  exact along_iff_of_invariant hpres hiff h (along_of_forall (fun _ _ ↦ trivial) s calls)

/-- Every register clear. -/
def clearedRegisters : DecodeRegisters where
  dmic := 0
  gcs := 0
  genDec _ := 0
  lpclgir _ := 0
  pccs1gir1 := 0
  segir := 0
  lgmr := 0
  lpcgmr := 0
  pccs1gmr1 := 0
  segmr := 0
  spiBde := 0
  lpcBde := 0
  lpcbde := 0
  iod := 0
  lpciod := 0
  ioe := 0
  pccs1iore := 0
  lpcioe := 0

theorem mirrorsAgree_clearedRegisters : MirrorsAgree clearedRegisters :=
  ⟨fun _ ↦ rfl, rfl, rfl, rfl, rfl, rfl, rfl⟩

/-- Calls of every setter, for both slaves; the second slave asks for all the enables in place. -/
def safeDecodeCalls : List DecodeCall :=
  [.genIoRange 0x680 32 lpcEspiFirstSlave, .genIoRange 0x700 16 espiSecondarySlave,
    .memRange 0xFE000000 espiSecondarySlave, .biosDecodeEnable 0xFFCF, .ioDecodeRanges 0x10,
    .ioEnableDecoding 0x1 lpcEspiFirstSlave, .ioEnableDecoding 0x3 espiSecondarySlave]

/-- The equivalence at those calls, whose right side is decided. -/
theorem along_mirrorsAgree_safeDecodeCalls :
    Along decodeNext (fun s call ↦ MirrorsAgree (decodeNext s call)) clearedRegisters
      safeDecodeCalls :=
  (along_mirrorsAgree_iff mirrorsAgree_clearedRegisters safeDecodeCalls).2 (by decide)

/-- One enable for the first slave, then another for the second: the source register holds both, the
copy only the second. -/
theorem not_along_mirrorsAgree_secondSlave :
    ¬ ∀ (s : DecodeRegisters) (calls : List DecodeCall), MirrorsAgree s →
      Along decodeNext (fun s call ↦ MirrorsAgree (decodeNext s call)) s calls := by
  intro h
  have hrun := h clearedRegisters
    [.ioEnableDecoding 0x1 lpcEspiFirstSlave, .ioEnableDecoding 0x2 espiSecondarySlave]
    mirrorsAgree_clearedRegisters
  exact absurd hrun.2.1.lpcioe (by decide)

end PurleyFirmware.Pch
