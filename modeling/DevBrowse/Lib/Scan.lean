import DevBrowse.Lib.Text

/-!
# What a scan over a text can find

A scan runs over a text to find something in it. Two ways to do it are here, with what they find
in terms of the text.

* A scan over the **windows** of the UTF-8 encoding finds what it would find over the characters,
  as long as it looks for ASCII only: a window of ASCII bytes is a window of ASCII characters
  (`Text.exists_window_iff`).
* A scan over the parts between separators looks at the **runs** of what is no separator, as long
  as they can be made (`List.mem_splitOnP_iff`).
-/

namespace List

variable {α : Type*} {p : α → Bool} {l w : List α}

/-- **The parts between separators are the maximal runs without one.** -/
theorem mem_splitOnP_iff : w ∈ l.splitOnP p ↔
    ∃ a b, l = a ++ w ++ b ∧ (∀ x ∈ w, p x = false) ∧ (∀ x ∈ a.getLast?, p x = true) ∧
      ∀ x ∈ b.head?, p x = true := by
  constructor
  · intro h
    induction hlen : l.length using Nat.strong_induction_on generalizing l with
    | _ n ih =>
      by_cases hsep : ∃ x ∈ l, p x = true
      · -- the first separator ends the first part
        obtain ⟨x, hx, hp⟩ := hsep
        obtain ⟨sep, first, rest, hfirst, hsep, rfl, -⟩ := List.exists_of_eraseP hx hp
        have hfirst' : ∀ x ∈ first, p x = false := fun x hx => Bool.eq_false_iff.mpr (hfirst x hx)
        rw [List.splitOnP_append_cons_of_forall_mem hfirst' sep hsep, List.mem_cons] at h
        rcases h with rfl | h
        · exact ⟨[], sep :: rest, rfl, hfirst', by simp, by simpa using hsep⟩
        · have hlt : rest.length < n := by
            rw [← hlen, List.length_append, List.length_cons]
            omega
          obtain ⟨a, b, rfl, hw, ha, hb⟩ := ih _ hlt h rfl
          refine ⟨first ++ sep :: a, b, by simp, hw, ?_, hb⟩
          rw [List.getLast?_append_cons]
          cases a using List.reverseRecOn with
          | nil => simpa using hsep
          | append_singleton a x =>
            rw [← List.cons_append, List.getLast?_concat]
            rwa [List.getLast?_concat] at ha
      · have hnone : ∀ x ∈ l, p x = false := fun x hx =>
          Bool.eq_false_iff.mpr fun hp => hsep ⟨x, hx, hp⟩
        rw [List.splitOnP_eq_singleton hnone, List.mem_singleton] at h
        subst h
        exact ⟨[], [], by simp, hnone, by simp, by simp⟩
  · rintro ⟨a, b, rfl, hw, ha, hb⟩
    have hrun : w ∈ (w ++ b).splitOnP p := by
      cases b with
      | nil =>
        rw [List.append_nil, List.splitOnP_eq_singleton hw]
        exact List.mem_singleton_self w
      | cons sep b =>
        rw [List.splitOnP_append_cons_of_forall_mem hw sep (hb sep rfl)]
        exact List.mem_cons_self
    cases a using List.reverseRecOn with
    | nil => exact hrun
    | append_singleton a sep =>
      have hsep : p sep = true := ha sep (by simp)
      rw [List.append_assoc, List.append_assoc, List.singleton_append,
        List.splitOnP_append_cons a (w ++ b) hsep]
      exact List.mem_append_right _ hrun

/-- What holds in a slice holds at its positions. -/
theorem all_take_drop_iff {i n : ℕ} : ((l.drop i).take n).all p = true ↔
    ∀ j x, l[j]? = some x → i ≤ j → j < i + n → p x = true := by
  rw [List.all_eq_true]
  constructor
  · intro h j x hx hi hn
    refine h x (List.mem_iff_getElem?.mpr ⟨j - i, ?_⟩)
    rw [List.getElem?_take_of_lt (by omega), List.getElem?_drop, Nat.add_sub_cancel' hi]
    exact hx
  · intro h x hx
    obtain ⟨j, hj⟩ := List.mem_iff_getElem?.mp hx
    have hjn : j < n := by
      by_contra hge
      rw [List.getElem?_take_eq_none (not_lt.mp hge)] at hj
      cases hj
    rw [List.getElem?_take_of_lt hjn, List.getElem?_drop] at hj
    exact h (i + j) x hj (Nat.le_add_right i j) (by omega)

end List

namespace Text

variable {s : Text}

/-- The byte of an ASCII character. -/
def asciiByte (c : Char) : UInt8 := .ofNat c.toNat

theorem utf8Bytes_append (s t : Text) : utf8Bytes (s ++ t) = s.utf8Bytes ++ t.utf8Bytes :=
  List.flatMap_append

theorem utf8Bytes_eq_map {w : Text} (h : ∀ c ∈ w, c.toNat < 128) :
    w.utf8Bytes = w.map asciiByte := by
  induction w with
  | nil => rfl
  | cons c w ih =>
    rw [utf8Bytes, List.flatMap_cons, utf8EncodeChar_of_lt (h c List.mem_cons_self)]
    exact congrArg (asciiByte c :: ·) (ih fun d hd => h d (List.mem_cons_of_mem c hd))

/-- A joined text is as long as its parts. -/
theorem length_le_intercalate {c : Char} {part : Text} {parts : List Text} (h : part ∈ parts) :
    part.length ≤ ([c].intercalate parts).length := by
  induction parts with
  | nil => cases h
  | cons first parts ih =>
    by_cases hnil : parts = []
    · subst hnil
      rw [List.mem_singleton.mp h]
      simp
    · rw [List.intercalate_cons_of_ne_nil hnil, List.length_append, List.length_append]
      rcases List.mem_cons.mp h with rfl | h
      · omega
      · exact (ih h).trans (Nat.le_add_left _ _)

theorem toNat_lt_of_isAlphanum {c : Char} (h : c.isAlphanum = true) : c.toNat < 128 := by
  change ((decide (c.val ≥ 'A'.val ∧ c.val ≤ 'Z'.val) ||
    (decide (c.val ≥ 'a'.val) && decide (c.val ≤ 'z'.val))) ||
      (decide (c.val ≥ '0'.val) && decide (c.val ≤ '9'.val))) = true at h
  simp only [Bool.or_eq_true, Bool.and_eq_true, decide_eq_true_eq, UInt32.le_iff_toNat_le] at h
  have hval : c.toNat = c.val.toNat := rfl
  have hZ : 'Z'.val.toNat = 90 := rfl
  have hz : 'z'.val.toNat = 122 := rfl
  have hnine : '9'.val.toNat = 57 := rfl
  omega

/-- Where an ASCII byte stands in the encoding, its character stands in the text. -/
theorem exists_of_utf8Bytes_cons {before after : List UInt8} {byte : UInt8}
    (hlt : byte.toNat < 128) (h : s.utf8Bytes = before ++ byte :: after) :
    ∃ a c b, s = a ++ c :: b ∧ utf8Bytes a = before ∧ c.toNat < 128 ∧ asciiByte c = byte ∧
      utf8Bytes b = after := by
  induction s generalizing before with
  | nil => simp [utf8Bytes] at h
  | cons d s ih =>
    rw [utf8Bytes, List.flatMap_cons, List.append_eq_append_iff] at h
    rcases h with ⟨before', rfl, h'⟩ | ⟨_ | ⟨byte', enc⟩, henc, h'⟩
    · obtain ⟨a, c, b, rfl, rfl, hc⟩ := ih h'
      exact ⟨d :: a, c, b, rfl, rfl, hc⟩
    · have hfirst : utf8Bytes s = [] ++ byte :: after := h'.symm
      obtain ⟨a, c, b, rfl, ha, hc⟩ := ih hfirst
      refine ⟨d :: a, c, b, rfl, ?_, hc⟩
      rw [utf8Bytes, List.flatMap_cons, henc, List.append_nil]
      exact (congrArg (before ++ ·) ha).trans (List.append_nil before)
    · -- the byte is one of the first character's, which is therefore a byte itself
      obtain ⟨rfl, rfl⟩ := List.cons.inj h'
      have hd : d.toNat < 128 := by
        by_contra hge
        have hmem : byte ∈ String.utf8EncodeChar d := by rw [henc]; simp
        have hle := le_of_mem_utf8EncodeChar (not_lt.mp hge) hmem
        omega
      rw [utf8EncodeChar_of_lt hd] at henc
      cases before with
      | nil =>
        obtain ⟨rfl, hnil⟩ := List.cons.inj henc
        rw [← hnil]
        exact ⟨[], d, s, rfl, rfl, hd, rfl, rfl⟩
      | cons x before => simp at henc

/-- What the encoding begins with in ASCII, the text begins with. -/
theorem exists_of_utf8Bytes_append {window after : List UInt8}
    (hlt : ∀ x ∈ window, x.toNat < 128) (h : s.utf8Bytes = window ++ after) :
    ∃ w b, s = w ++ b ∧ (∀ c ∈ w, c.toNat < 128) ∧ w.map asciiByte = window := by
  induction window generalizing s with
  | nil => exact ⟨[], s, rfl, by simp, rfl⟩
  | cons x window ih =>
    have hfirst : utf8Bytes s = [] ++ x :: (window ++ after) := h
    obtain ⟨a, c, b, rfl, ha, hc, rfl, hb⟩ :=
      exists_of_utf8Bytes_cons (hlt x List.mem_cons_self) hfirst
    obtain ⟨w, b, rfl, hw, rfl⟩ := ih (fun y hy => hlt y (List.mem_cons_of_mem _ hy)) hb
    obtain rfl : a = [] := utf8Bytes_injective ha
    exact ⟨c :: w, b, rfl, List.forall_mem_cons.mpr ⟨hc, hw⟩, rfl⟩

/-- **A scan over the windows of the bytes finds what a scan over those of the characters
does**, where it looks for ASCII. -/
theorem exists_window_iff {q : List UInt8 → Prop}
    (hq : ∀ window, q window → ∀ x ∈ window, x.toNat < 128) :
    (∃ before window after, s.utf8Bytes = before ++ window ++ after ∧ q window) ↔
      ∃ a w b, s = a ++ w ++ b ∧ (∀ c ∈ w, c.toNat < 128) ∧ q (w.map asciiByte) := by
  constructor
  · rintro ⟨before, _ | ⟨x, window⟩, after, h, hwindow⟩
    · exact ⟨[], [], s, rfl, by simp, hwindow⟩
    · have hlt := hq _ hwindow
      rw [List.append_assoc, List.cons_append] at h
      obtain ⟨a, c, b, rfl, -, hc, rfl, hb⟩ :=
        exists_of_utf8Bytes_cons (hlt x List.mem_cons_self) h
      obtain ⟨w, b, rfl, hw, rfl⟩ :=
        exists_of_utf8Bytes_append (fun y hy => hlt y (List.mem_cons_of_mem _ hy)) hb
      exact ⟨a, c :: w, b, by simp, List.forall_mem_cons.mpr ⟨hc, hw⟩, hwindow⟩
  · rintro ⟨a, w, b, rfl, hw, hwindow⟩
    refine ⟨utf8Bytes a, w.map asciiByte, utf8Bytes b, ?_, hwindow⟩
    rw [utf8Bytes_append, utf8Bytes_append, utf8Bytes_eq_map hw]

end Text
