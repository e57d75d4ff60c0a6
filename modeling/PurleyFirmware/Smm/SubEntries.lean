import PurleyFirmware.Smm.PageFaults

/-!
# The numbers of sub-entries

Each upper entry of the SMM page tables has a field for the number of present entries in the table
it points to, by which `ReclaimPages` is to know when that table is empty. The number is said to be
"based on 0", so that 0 stands for one sub-entry. `SmmInitPageTable` writes a 3 for four entries, and
the check of the PDPT entry follows that; the page-fault handler and the check of the PML4 entry
count from nothing; and the entries of the first 4 GB, which `SmmInitPageTable` masks, get no number
at all. There is no reading under which all of it is right: `subEntries_never`.
-/

namespace PurleyFirmware.PageTable

/-- The number of present entries of a table. -/
def presentEntries (m : Memory) (page : ℕ) : ℕ :=
  (List.finRange 512).countP fun k ↦ (m page k).present

/-- Every present PML4 entry, and every present PDPT entry that points to a page directory, says how
many entries of its table are present, where the field 0 stands for `base` of them. -/
structure SubEntriesExact (P : Platform) (base : ℕ) (m : Memory) : Prop where
  pml4 : ∀ i, (m P.pml4 i).present →
    getSubEntriesNum (m P.pml4 i) + base = presentEntries m (m P.pml4 i).frame
  pdpt : ∀ i j, (m P.pml4 i).present → (m (m P.pml4 i).frame j).present →
    (m (m P.pml4 i).frame j).pageSize = false →
      getSubEntriesNum (m (m P.pml4 i).frame j) + base =
        presentEntries m (m (m P.pml4 i).frame j).frame

/-! ### The tables at the start -/

section Start

variable (P : Platform) (m : Memory)

theorem presentEntries_le (page : ℕ) : presentEntries m page ≤ 512 := by
  have hle := List.countP_le_length (p := fun k ↦ (m page k).present) (l := List.finRange 512)
  rwa [List.length_finRange] at hle

/-- The first page directory is full. -/
theorem presentEntries_start :
    presentEntries (smmInitPageTable P m).mem (P.pdpt + 1) = 512 := by
  have hall : ∀ k ∈ List.finRange 512,
      ((smmInitPageTable P m).mem (P.pdpt + (0 + 1)) k).present = true := by
    intro k _
    have hlink := congrArg Link.present (startLinks_pdt P m (by decide : 0 < 4) k)
    rw [startLinks, links_apply] at hlink
    rw [hlink]
    split <;> rfl
  rw [presentEntries, List.countP_eq_length.2 hall, List.length_finRange]

/-- The numbers are wrong from the start, whatever 0 stands for. -/
theorem not_subEntriesExact_start (base : ℕ) :
    ¬ SubEntriesExact P base (smmInitPageTable P m).mem := by
  intro h
  have hpml4 : links (smmInitPageTable P m).mem P.pml4 0 = ⟨true, false, false, P.pdpt, 3⟩ :=
    startLinks_pml4 P m 0
  have hpdpt : links (smmInitPageTable P m).mem P.pdpt 0 = ⟨true, false, true, P.pdpt + 1, 0⟩ :=
    startLinks_pdpt P m 0
  rw [links_apply] at hpml4 hpdpt
  have hframe := congrArg Link.frame hpml4
  dsimp only at hframe
  have hfirst := h.pml4 0 (congrArg Link.present hpml4)
  have hsecond := h.pdpt 0 0 (congrArg Link.present hpml4)
  rw [hframe] at hfirst hsecond
  have hfull := hsecond (congrArg Link.present hpdpt) (congrArg Link.pageSize hpdpt)
  rw [congrArg Link.frame hpdpt, presentEntries_start] at hfull
  have hthree : getSubEntriesNum ((smmInitPageTable P m).mem P.pml4 0) = 3 :=
    congrArg (fun e ↦ e.subEntries.toNat) hpml4
  have hzero : getSubEntriesNum ((smmInitPageTable P m).mem P.pdpt 0) = 0 :=
    congrArg (fun e ↦ e.subEntries.toNat) hpdpt
  have hle := presentEntries_le (smmInitPageTable P m).mem P.pdpt
  omega

end Start

/-! ### Releasing a table that has become empty -/

section Release

variable {t : Tables} {pml4 base : ℕ} {i j : Fin 512}

/-- The last entry of a page-directory-pointer table has been removed, its number not yet lowered:
the table goes to the pool if 0 stands for none. -/
theorem checkPml4Entry_lastRemoved
    (hcount : getSubEntriesNum (t.mem pml4 i) + base = presentEntries t.mem (t.mem pml4 i).frame + 1)
    (hempty : presentEntries t.mem (t.mem pml4 i).frame = 0)
    (hreserved : t.reservedPage ≠ (t.mem pml4 i).frame)
    (hpool : (t.mem pml4 i).frame ∉ t.pagePool) :
    (t.mem pml4 i).frame ∈ (checkPml4Entry pml4 i t).pagePool ↔ base = 0 := by
  have hfield : getSubEntriesNum (t.mem pml4 i) < 512 := (t.mem pml4 i).subEntries.isLt
  have hnum : wrapSub 64 (getSubEntriesNum (t.mem pml4 i)) 1 = 0 ↔ base = 0 := by
    rw [wrapSub]
    omega
  rw [checkPml4Entry]
  split
  · rename_i h
    exact iff_of_true (List.mem_append_right _ List.mem_cons_self) (hnum.1 h.2)
  · rename_i h
    exact iff_of_false hpool fun hbase ↦ h ⟨hreserved, hnum.2 hbase⟩

theorem pagePool_checkPml4Entry (t : Tables) : t.pagePool ⊆ (checkPml4Entry pml4 i t).pagePool := by
  rw [checkPml4Entry]
  split
  · exact List.subset_append_left _ _
  · exact List.Subset.refl _

/-- The last entry of a page directory has been removed, its number not yet lowered: the page
directory goes to the pool if 0 stands for one. -/
theorem checkPdptEntry_lastRemoved
    (hcount : getSubEntriesNum (t.mem (t.mem pml4 i).frame j) + base =
      presentEntries t.mem (t.mem (t.mem pml4 i).frame j).frame + 1)
    (hempty : presentEntries t.mem (t.mem (t.mem pml4 i).frame j).frame = 0)
    (hpool : (t.mem (t.mem pml4 i).frame j).frame ∉ t.pagePool) :
    (t.mem (t.mem pml4 i).frame j).frame ∈ (checkPdptEntry pml4 i j t).pagePool ↔ base = 1 := by
  rw [checkPdptEntry]
  split
  · rename_i h
    refine iff_of_true (pagePool_checkPml4Entry _ ?_) (by omega)
    exact List.mem_append_right _ List.mem_cons_self
  · exact iff_of_false hpool (by omega)

end Release

/-- **No reading of the numbers is right.** They are not exact at the start of any run; and where
they are, a page directory that has become empty goes to the pool only if 0 stands for one present
entry, a page-directory-pointer table only if it stands for none. -/
theorem subEntries_never (P : Platform) (base : ℕ) :
    (∀ s, (system P).init s → ¬ SubEntriesExact P base s.mem) ∧
      (∀ (t : Tables) (i j : Fin 512),
        getSubEntriesNum (t.mem (t.mem P.pml4 i).frame j) + base =
          presentEntries t.mem (t.mem (t.mem P.pml4 i).frame j).frame + 1 →
        presentEntries t.mem (t.mem (t.mem P.pml4 i).frame j).frame = 0 →
        (t.mem (t.mem P.pml4 i).frame j).frame ∉ t.pagePool →
          ((t.mem (t.mem P.pml4 i).frame j).frame ∈ (checkPdptEntry P.pml4 i j t).pagePool ↔
            base = 1)) ∧
      ∀ (t : Tables) (i : Fin 512),
        getSubEntriesNum (t.mem P.pml4 i) + base =
          presentEntries t.mem (t.mem P.pml4 i).frame + 1 →
        presentEntries t.mem (t.mem P.pml4 i).frame = 0 →
        t.reservedPage ≠ (t.mem P.pml4 i).frame → (t.mem P.pml4 i).frame ∉ t.pagePool →
          ((t.mem P.pml4 i).frame ∈ (checkPml4Entry P.pml4 i t).pagePool ↔ base = 0) := by
  refine ⟨?_, fun t i j ↦ checkPdptEntry_lastRemoved, fun t i ↦ checkPml4Entry_lastRemoved⟩
  rintro s ⟨m, rfl⟩
  exact not_subEntriesExact_start P m base

/-- The field of the first PDPT entry is 0, and its page directory has 512 entries. -/
theorem not_subEntriesExact_smallStart :
    ¬ ∀ (P : Platform) (s : State), (system P).Reachable s → SubEntriesExact P 0 s.mem := fun hall ↦
  not_subEntriesExact_start smallPlatform (fun _ _ ↦ .zero) 0
    (hall smallPlatform smallStart (.init ⟨_, rfl⟩))

end PurleyFirmware.PageTable
