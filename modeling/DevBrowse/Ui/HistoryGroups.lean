import DevBrowse.Lib.Sections
import DevBrowse.Lib.Words
import DevBrowse.Ui.History

/-!
# The history by days

The entries that are shown stand in sections by their age in days: those of today, of yesterday,
of each of the days before up to six, and all older ones. An entry that comes from the future is
one of today. The number of days is cut down to a word of 32 bits, so that there are ages of
millions of years that are shown as a few days; all sections are right exactly if no entry is so
old (`DevBrowse.Ui.HistoryPanel.grouped_iff`).
-/

namespace DevBrowse

namespace Ui

/-- A section of the history. -/
inductive DayBucket where
  | today
  | yesterday
  /-- Two to six days ago. -/
  | daysAgo (days : ℕ)
  | older
  deriving DecidableEq

namespace DayBucket

/-- The section of an age in days. -/
def fromAgeDays (days : ℕ) : DayBucket :=
  if days = 0 then .today
  else if days = 1 then .yesterday
  else if days ≤ 6 then .daysAgo days
  else .older

/-- The least age in days in a section. -/
def age : DayBucket → ℕ
  | today => 0
  | yesterday => 1
  | daysAgo days => days
  | older => 7

variable {days days' : ℕ}

theorem age_fromAgeDays (days : ℕ) : (fromAgeDays days).age = min days 7 := by
  rw [fromAgeDays]
  split
  · rename_i h
    rw [h]
    rfl
  · split
    · rename_i h
      rw [h]
      rfl
    · split
      · change days = min days 7
        omega
      · change 7 = min days 7
        omega

theorem fromAgeDays_of_le (h : 7 ≤ days) : fromAgeDays days = .older := by
  rw [fromAgeDays, if_neg (by omega), if_neg (by omega), if_neg (by omega)]

/-- **Two ages are in one section** exactly if they are the same, or both a week at least. -/
theorem fromAgeDays_eq_iff :
    fromAgeDays days = fromAgeDays days' ↔ min days 7 = min days' 7 := by
  constructor
  · intro h
    rw [← age_fromAgeDays, ← age_fromAgeDays, h]
  · intro h
    by_cases hle : 7 ≤ days
    · rw [fromAgeDays_of_le hle, fromAgeDays_of_le (by omega)]
    · have hsame : days = days' := by omega
      rw [hsame]

end DayBucket

/-- The milliseconds of a day. -/
def dayMs : ℤ := 86400000

/-- The age of an entry in days. The difference of the times saturates, and the quotient is cut
down to a word of 32 bits. -/
def ageDays (nowMs entryMs : Int64) : ℕ :=
  let delta := max (Word.saturate 64 (nowMs.toInt - entryMs.toInt)) 0
  (Word.asUnsigned 32 (delta / dayMs)).toNat

/-- The whole days from one time to another, and 0 if that is earlier. -/
def wholeDays (nowMs entryMs : Int64) : ℕ :=
  ((nowMs.toInt - entryMs.toInt) / dayMs).toNat

/-- The age of an entry as it is computed, before it is cut down. -/
def saturatedDays (nowMs entryMs : Int64) : ℕ :=
  (max (Word.saturate 64 (nowMs.toInt - entryMs.toInt)) 0 / dayMs).toNat

/-- **The age of an entry can be cut down**: it is less than `2 ^ 32` days, or a week at least is
left of it. -/
def AgeFits (nowMs entryMs : Int64) : Prop :=
  saturatedDays nowMs entryMs < 2 ^ 32 ∨ 7 ≤ saturatedDays nowMs entryMs % 2 ^ 32

variable {nowMs entryMs : Int64}

theorem ageDays_eq (nowMs entryMs : Int64) :
    ageDays nowMs entryMs = saturatedDays nowMs entryMs % 2 ^ 32 := by
  have hnonneg : 0 ≤ max (Word.saturate 64 (nowMs.toInt - entryMs.toInt)) 0 / dayMs :=
    Int.ediv_nonneg (le_max_right _ _) (by decide)
  obtain ⟨n, hn⟩ := Int.eq_ofNat_of_zero_le hnonneg
  simp only [ageDays, saturatedDays, Word.asUnsigned, hn]
  omega

/-- The difference is large where it saturates. -/
theorem min_saturatedDays (nowMs entryMs : Int64) :
    min (saturatedDays nowMs entryMs) 7 = min (wholeDays nowMs entryMs) 7 := by
  have hnow := nowMs.toInt_lt
  have hentry := entryMs.le_toInt
  simp only [saturatedDays, wholeDays, Word.saturate, dayMs]
  omega

/-- **An entry stands in the section of its age** exactly if its age can be cut down. -/
theorem bucket_eq_iff (nowMs entryMs : Int64) :
    DayBucket.fromAgeDays (ageDays nowMs entryMs) =
        DayBucket.fromAgeDays (wholeDays nowMs entryMs) ↔ AgeFits nowMs entryMs := by
  have hsame := min_saturatedDays nowMs entryMs
  rw [DayBucket.fromAgeDays_eq_iff, ageDays_eq, AgeFits]
  omega

/-- An earlier time is not more recent. -/
theorem wholeDays_le {entryMs' : Int64} (h : entryMs' ≤ entryMs) :
    wholeDays nowMs entryMs ≤ wholeDays nowMs entryMs' := by
  have hle := Int64.le_iff_toInt_le.mp h
  have hdiv : (nowMs.toInt - entryMs.toInt) / dayMs ≤ (nowMs.toInt - entryMs'.toInt) / dayMs :=
    Int.ediv_le_ediv (by decide) (by omega)
  exact Int.toNat_le_toNat hdiv

namespace HistoryPanel

variable {panel : HistoryPanel}

/-- The section of an entry. -/
def bucketOf (panel : HistoryPanel) (entry : HistoryEntry) : DayBucket :=
  .fromAgeDays (ageDays panel.nowMs entry.timestampMs)

/-- **The entries that are shown, in sections.** -/
def grouped (panel : HistoryPanel) : List (DayBucket × List HistoryEntry) :=
  Sections.cut panel.bucketOf (filtered panel.searchQuery panel.entries)

/-- **The entries are shown by their age**: all of them in their order, each in the section of its
age in whole days, and if they are sorted no section comes twice or before a more recent one. -/
structure GroupedByAge (panel : HistoryPanel) : Prop where
  /-- All entries are shown, in their order. -/
  flatMap_eq : panel.grouped.flatMap Prod.snd = filtered panel.searchQuery panel.entries
  /-- Each is shown in the section of its age. -/
  bucket_eq : ∀ g ∈ panel.grouped, ∀ e ∈ g.2,
    g.1 = .fromAgeDays (wholeDays panel.nowMs e.timestampMs)
  /-- The sections of sorted entries are sorted. -/
  sorted : panel.entries.Pairwise (fun e e' => e'.timestampMs ≤ e.timestampMs) →
    (panel.grouped.map Prod.fst).Nodup ∧
      panel.grouped.Pairwise fun g g' => g.1.age < g'.1.age

/-- Where every entry is in the section of its age, the sections of sorted entries are sorted. -/
theorem sorted_grouped (hbucket : ∀ e ∈ filtered panel.searchQuery panel.entries,
      panel.bucketOf e = .fromAgeDays (wholeDays panel.nowMs e.timestampMs))
    (hsorted : panel.entries.Pairwise fun e e' => e'.timestampMs ≤ e.timestampMs) :
    panel.grouped.Pairwise fun g g' => g.1.age < g'.1.age := by
  refine Sections.pairwise_cut (fun e he e' he' hage => ?_) ?_
  · rw [hbucket e he, hbucket e' he', DayBucket.age_fromAgeDays,
      DayBucket.age_fromAgeDays] at hage
    rw [hbucket e he, hbucket e' he', DayBucket.fromAgeDays_eq_iff]
    exact hage
  · have hshown : (filtered panel.searchQuery panel.entries).Pairwise
        fun e e' => e'.timestampMs ≤ e.timestampMs := hsorted.sublist List.filter_sublist
    refine hshown.imp_of_mem fun {e e'} he he' hle => ?_
    rw [hbucket e he, hbucket e' he', DayBucket.age_fromAgeDays, DayBucket.age_fromAgeDays]
    exact min_le_min_right 7 (wholeDays_le hle)

/-- **The entries are shown by their age** exactly if the age of each that is shown can be cut
down to a word. -/
theorem grouped_iff (panel : HistoryPanel) :
    GroupedByAge panel ↔
      ∀ e ∈ filtered panel.searchQuery panel.entries, AgeFits panel.nowMs e.timestampMs := by
  have hcut := Sections.cut_spec panel.bucketOf (filtered panel.searchQuery panel.entries)
  constructor
  · intro h e he
    rw [← h.flatMap_eq] at he
    obtain ⟨g, hg, heg⟩ := List.mem_flatMap.mp he
    rw [← bucket_eq_iff, ← h.bucket_eq g hg e heg]
    exact hcut.key_eq g hg e heg
  · intro h
    have hbucket : ∀ e ∈ filtered panel.searchQuery panel.entries,
        panel.bucketOf e = .fromAgeDays (wholeDays panel.nowMs e.timestampMs) :=
      fun e he => (bucket_eq_iff _ _).mpr (h e he)
    refine ⟨hcut.flatMap_eq, fun g hg e heg => ?_, fun hsorted => ?_⟩
    · rw [← hcut.key_eq g hg e heg]
      exact hbucket e (hcut.mem hg heg)
    · have hages := sorted_grouped hbucket hsorted
      refine ⟨List.pairwise_map.mpr (hages.imp fun {g g'} hlt heq => ?_), hages⟩
      exact absurd (congrArg DayBucket.age heq) (Nat.ne_of_lt hlt)

/-- A page whose time is far before the epoch. -/
def ancientPage : HistoryEntry := { examplePage with timestampMs := -371083384374400000 }

/-- That page at a clock of the present, `2 ^ 32` days after its time. -/
def ancientPanel : HistoryPanel where
  isOpen := true
  phase := .populated
  entries := [ancientPage]
  searchQuery := []
  focusedRow := none
  nowMs := 1790000000000

/-- **That entry is shown as one of today.** -/
theorem not_groupedByAge :
    ancientPanel.grouped = [(.today, [ancientPage])] ∧
      wholeDays ancientPanel.nowMs ancientPage.timestampMs = 2 ^ 32 ∧
      ¬ GroupedByAge ancientPanel := by
  have hgrouped : ancientPanel.grouped = [(.today, [ancientPage])] := by decide +kernel
  refine ⟨hgrouped, by decide +kernel, fun h => ?_⟩
  have hbucket := h.bucket_eq (.today, [ancientPage]) (by simp [hgrouped]) ancientPage (by simp)
  exact absurd hbucket (by decide +kernel)

end HistoryPanel

end Ui

end DevBrowse
