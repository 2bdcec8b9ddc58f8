import DevBrowse.Ui.TabRecords

/-!
# The address that was committed

An address that is committed is shown by the address bar at once. When the bar starts over for
the tab, after another tab was looked at, it shows the address of the tab's record, and that is
written only where there was no tab for the address. So the button that converts to Strict may
come back, and an old address with it. As long as nothing comes from outside the bar shows the
last address that was committed exactly if the record has it whenever the bar starts over
(`DevBrowse.Ui.AppState.shows_committed_iff`), so where every address that is committed is that of
the record (`DevBrowse.Ui.AppState.shows_committed`).
-/

namespace DevBrowse

namespace Ui

namespace AddressBar

/-- A bar that shows an address without the button goes on to, unless an address comes from
outside or another is committed. -/
theorem shows_update {ab : AddressBar} (msg : AddressBarMsg) (hchip : ab.chipState = .hidden)
    (hexternal : ∀ url, msg ≠ .navigatedExternally url)
    (hcommit : ∀ url mode, (ab.update msg).2 ≠ some (.navigationCommitted url mode)) :
    (ab.update msg).1.chipState = .hidden ∧ (ab.update msg).1.currentUrl = ab.currentUrl := by
  cases msg with
  | navigatedExternally url => exact absurd rfl (hexternal url)
  | navigatePressed =>
    rw [update] at hcommit ⊢
    split_ifs at hcommit ⊢
    · exact ⟨hchip, rfl⟩
    · exact absurd rfl (hcommit _ _)
  | focusLost | escPressed =>
    rw [update, unfocus]
    split_ifs <;> exact ⟨hchip, rfl⟩
  | scrolledDown | scrolledUp | autoDismissConvertChip =>
    rw [update]
    split_ifs <;> exact ⟨by simp [hchip], rfl⟩
  | dismissConvertChip => exact ⟨rfl, rfl⟩
  | _ => exact ⟨hchip, rfl⟩

end AddressBar

namespace AppState

open Transition

variable {ρ : Type*} [Px ρ] {s s' : AppState ρ} {id : ℕ} {url : Text}
  {tr : List (Step (AppState ρ) (Message ρ))} {x : Step (AppState ρ) (Message ρ)}

/-! ### Committing an address -/

/-- An address is committed in a tab: the active one, or the one that is opened for it. -/
def Commits (x : Step (AppState ρ) (Message ρ)) (id : ℕ) (url : Text) : Prop :=
  ∃ msg mode, x.input = .addressBar msg ∧
    (x.pre.addressBar.update msg).2 = some (.navigationCommitted url mode) ∧
    x.post.tabBar.activeId = id ∧ id ∈ x.post.tabBar.ids

/-- An address comes from outside for a tab. -/
def Arrives (x : Step (AppState ρ) (Message ρ)) (id : ℕ) : Prop :=
  (∃ url, x.input = .addressBar (.navigatedExternally url)) ∧ x.pre.tabBar.activeId = id

/-- **The last address that was committed in a tab**, which has been open since, and for which
none has come from outside. -/
def Committed (tr : List (Step (AppState ρ) (Message ρ))) (id : ℕ) (url : Text) : Prop :=
  Since (fun x => Commits x id url)
    (fun x => id ∈ x.post.tabBar.ids ∧ ¬ Arrives x id ∧ ∀ url', ¬ Commits x id url') tr

/-- The address bar shows the last address that was committed in the active tab, without the
button that converts to Strict. -/
def ShowsCommitted (tr : List (Step (AppState ρ) (Message ρ))) (s : AppState ρ) : Prop :=
  ∀ url, Committed tr s.tabBar.activeId url →
    s.addressBar.chipState = .hidden ∧ s.addressBar.currentUrl = url

/-- **Where the address bar starts over** for a tab that stays open, the record of the tab has the
last address that was committed in it. -/
def UpToDate (tr : List (Step (AppState ρ) (Message ρ)))
    (x : Step (AppState ρ) (Message ρ)) : Prop :=
  ∀ id url, x.pre.StartsOver x.input id → ¬ x.pre.Closes x.input id → Committed tr id url →
    (id, url) ∈ records x.pre.tabBar.tabs

/-- Where an address is committed while there are tabs, the record of the active one has it. -/
def Written (s : AppState ρ) : Message ρ → Prop
  | .addressBar .navigatePressed => s.addressBar.barState = .focused →
    ∀ tab, s.tabBar.tabOf s.tabBar.activeId = some tab → tab.url = s.addressBar.committedUrl
  | _ => True

/-- The records have the addresses that were committed. -/
def RecordsAll (tr : List (Step (AppState ρ) (Message ρ))) (s : AppState ρ) : Prop :=
  ∀ id url, Committed tr id url → (id, url) ∈ records s.tabBar.tabs

/-- What holds along every run. -/
structure Recalled (tr : List (Step (AppState ρ) (Message ρ))) (s : AppState ρ) : Prop where
  /-- No two tabs share an identifier. -/
  nodup : s.tabBar.ids.Nodup
  /-- What is in the input was typed. -/
  typed : s.addressBar.Typed
  /-- A tab in which an address was committed is open. -/
  opened : ∀ id url, Committed tr id url → id ∈ s.tabBar.ids
  /-- An address that was committed is not empty. -/
  url_ne_nil : ∀ id url, Committed tr id url → url ≠ []

/-! ### What one message keeps -/

/-- An address is committed with the enter key. -/
theorem commits_iff {msg : Message ρ} : Commits ⟨s, msg, s.update msg⟩ id url ↔
    msg = .addressBar .navigatePressed ∧ s.addressBar.barState = .focused ∧
      url = s.addressBar.committedUrl ∧ (s.update msg).tabBar.activeId = id ∧
      id ∈ (s.update msg).tabBar.ids := by
  constructor
  · rintro ⟨abMsg, mode, hinput, hevent, hactive, hopen⟩
    obtain rfl : msg = .addressBar abMsg := hinput
    obtain ⟨rfl, hfocus, rfl, -⟩ := AddressBar.event_update_commit hevent
    exact ⟨rfl, hfocus, rfl, hactive, hopen⟩
  · rintro ⟨rfl, hfocus, rfl, hactive, hopen⟩
    exact ⟨.navigatePressed, _, rfl, (AddressBar.update_commit hfocus).2.2, hactive, hopen⟩

/-- Other messages commit nothing. -/
theorem committed_of_snoc {msg : Message ρ} (hmsg : msg ≠ .addressBar .navigatePressed)
    (h : Committed (tr ++ [⟨s, msg, s.update msg⟩]) id url) : Committed tr id url := by
  rcases since_snoc.mp h with hcommits | ⟨hbefore, -⟩
  · exact absurd (commits_iff.mp hcommits).1 hmsg
  · exact hbefore

/-- Where there are tabs, committing an address is between the user and the address bar. -/
theorem tabBar_update_commit (hne : s.tabBar.tabs ≠ []) :
    (s.update (.addressBar .navigatePressed)).tabBar = s.tabBar := by
  rw [update, onAddressBar]
  dsimp only
  split
  · rename_i event hevent
    cases event with
    | navigationCommitted url mode =>
      rw [onAddressBarEvent, if_neg (mt List.isEmpty_iff.mp hne)]
    | convertToStrictClicked =>
      cases (AddressBar.event_update_convert hevent).1
    | networkViewerRequested => rfl
  · rfl

/-- A tab that stays open keeps the address of its record. -/
theorem record_update {msg : Message ρ} (hold : (id, url) ∈ records s.tabBar.tabs)
    (hopen : id ∈ (s.update msg).tabBar.ids) :
    (id, url) ∈ records (s.update msg).tabBar.tabs := by
  have hrecorded := recorded_update s msg
  rw [TabBar.ids, ← map_fst_records] at hopen
  generalize records (s.update msg).tabBar.tabs = rs at hrecorded hopen ⊢
  cases hrecorded with
  | kept hperm => exact hperm.mem_iff.mpr hold
  | closed hcloses =>
    rename_i id'
    obtain ⟨tab, htab, rfl, rfl⟩ := mem_records.mp hold
    rw [map_fst_records] at hopen
    obtain ⟨tab', htab', hid⟩ := List.mem_map.mp hopen
    have hne : tab.id ≠ id' := hid ▸ (Keyed.mem_remove.mp htab').2
    exact mem_records.mpr ⟨tab, Keyed.mem_remove.mpr ⟨htab, hne⟩, rfl, rfl⟩
  | opened => exact List.mem_append_left _ hold
  | committed hnil =>
    rw [hnil] at hold
    cases hold

/-- A tab that is not closed stays open. -/
theorem mem_ids_update {msg : Message ρ} (hopen : id ∈ s.tabBar.ids)
    (hcloses : ¬ s.Closes msg id) : id ∈ (s.update msg).tabBar.ids := by
  have hrecorded := recorded_update s msg
  rw [TabBar.ids, ← map_fst_records] at hopen ⊢
  generalize records (s.update msg).tabBar.tabs = rs at hrecorded ⊢
  cases hrecorded with
  | kept hperm => exact (hperm.map Prod.fst).mem_iff.mpr hopen
  | closed hcloses' =>
    rename_i id'
    rw [map_fst_records] at hopen ⊢
    obtain ⟨tab, htab, rfl⟩ := List.mem_map.mp hopen
    have hne : tab.id ≠ id' := fun heq => hcloses (heq ▸ hcloses')
    exact List.mem_map_of_mem (Keyed.mem_remove.mpr ⟨htab, hne⟩)
  | opened =>
    rw [List.map_append]
    exact List.mem_append_left _ hopen
  | committed hnil =>
    rw [hnil] at hopen
    cases hopen

/-- A tab that is closed is not open any more. -/
theorem notMem_of_closes {msg : Message ρ} (hcloses : s.Closes msg id) :
    id ∉ (s.update msg).tabBar.ids := by
  rw [TabBar.ids, ← map_fst_records, records_of_closes hcloses, map_fst_records]
  intro hmem
  obtain ⟨tab, htab, hid⟩ := List.mem_map.mp hmem
  exact (Keyed.mem_remove.mp htab).2 hid

/-- What the record of a tab has it had before. -/
theorem record_of_update {msg : Message ρ} (hnodup : (s.update msg).tabBar.ids.Nodup)
    (hbefore : id ∈ s.tabBar.ids) (hrecord : (id, url) ∈ records (s.update msg).tabBar.tabs) :
    (id, url) ∈ records s.tabBar.tabs := by
  obtain ⟨tab, htab, rfl⟩ := List.mem_map.mp hbefore
  obtain ⟨tab', htab', hid', rfl⟩ := mem_records.mp hrecord
  have hkept : (tab.id, tab.url) ∈ records (s.update msg).tabBar.tabs :=
    record_update (mem_records.mpr ⟨tab, htab, rfl, rfl⟩) (hid' ▸ List.mem_map_of_mem htab')
  obtain ⟨tab'', htab'', hid'', hurl⟩ := mem_records.mp hkept
  obtain rfl := List.inj_on_of_nodup_map hnodup htab'' htab' (hid''.trans hid'.symm)
  exact mem_records.mpr ⟨tab, htab, rfl, hurl.symm⟩

/-- **The record of a tab that is opened for an address has it.** -/
theorem record_of_opened {msg : Message ρ} (hcommits : Commits ⟨s, msg, s.update msg⟩ id url)
    (hfirst : id ∉ s.tabBar.ids) : (id, url) ∈ records (s.update msg).tabBar.tabs := by
  obtain ⟨rfl, -, rfl, -, hopen⟩ := commits_iff.mp hcommits
  have hrecorded := recorded_update s (.addressBar .navigatePressed)
  rw [TabBar.ids, ← map_fst_records] at hopen hfirst
  generalize records (s.update (.addressBar .navigatePressed)).tabBar.tabs = rs
    at hrecorded hopen ⊢
  cases hrecorded with
  | kept hperm => exact absurd ((hperm.map Prod.fst).mem_iff.mp hopen) hfirst
  | closed hcloses => exact hcloses.elim
  | opened hopens => exact hopens.elim
  | committed =>
    obtain rfl := List.mem_singleton.mp hopen
    exact List.mem_singleton.mpr rfl

/-- **The record of a tab has the address that is committed in it**, if it is written. -/
theorem record_of_commits {msg : Message ρ} (hwritten : s.Written msg)
    (hcommits : Commits ⟨s, msg, s.update msg⟩ id url) :
    (id, url) ∈ records (s.update msg).tabBar.tabs := by
  by_cases hbefore : id ∈ s.tabBar.ids
  · obtain ⟨rfl, hfocus, rfl, rfl, hopen⟩ := commits_iff.mp hcommits
    have hsame := tabBar_update_commit (s := s) fun hnil => by
      rw [TabBar.ids, hnil] at hbefore
      cases hbefore
    rw [hsame] at hopen ⊢
    obtain ⟨tab, hfind⟩ : ∃ tab, s.tabBar.tabOf s.tabBar.activeId = some tab :=
      Keyed.exists_find hopen
    obtain ⟨htab, hid⟩ := Keyed.mem_of_find hfind
    exact mem_records.mpr ⟨tab, htab, hid, hwritten hfocus tab hfind⟩
  · exact record_of_opened hcommits hbefore

omit [Px ρ] in
/-- A bar that has started over shows the address of the record. -/
theorem Rebuilt.shows (h : s.Rebuilt) (hnodup : s.tabBar.ids.Nodup)
    (hrecord : (s.tabBar.activeId, url) ∈ records s.tabBar.tabs) (hurl : url ≠ []) :
    s.addressBar.chipState = .hidden ∧ s.addressBar.currentUrl = url := by
  obtain ⟨tab, htab, hid, rfl⟩ := mem_records.mp hrecord
  obtain ⟨hshows, hchip⟩ := h tab ((Keyed.find_eq_some_iff hnodup).mpr ⟨htab, hid⟩)
  exact ⟨hchip hurl, hshows⟩

omit [Px ρ] in
/-- A tab that was open and is has not been opened. -/
theorem not_shownFirst (hbefore : s'.tabBar.activeId ∈ s.tabBar.ids)
    (hopen : s'.tabBar.activeId ∈ s'.tabBar.ids) : ¬ ShownFirst s s' := by
  rintro (hnew | hnil)
  · exact hnew hbefore
  · rw [TabBar.ids, hnil] at hopen
    cases hopen

/-- **What was committed before a message goes on being shown**, if the record is up to date. -/
theorem ShowsCommitted.update {msg : Message ρ} (h : ShowsCommitted tr s)
    (hrecalled : Recalled tr s) (hnodup : (s.update msg).tabBar.ids.Nodup)
    (hdate : UpToDate tr ⟨s, msg, s.update msg⟩)
    (hcommitted : Committed tr (s.update msg).tabBar.activeId url)
    (harrives : ¬ Arrives ⟨s, msg, s.update msg⟩ (s.update msg).tabBar.activeId)
    (hcommits : ∀ url', ¬ Commits ⟨s, msg, s.update msg⟩ (s.update msg).tabBar.activeId url')
    (hopen : (s.update msg).tabBar.activeId ∈ (s.update msg).tabBar.ids) :
    (s.update msg).addressBar.chipState = .hidden ∧
      (s.update msg).addressBar.currentUrl = url := by
  have hbefore := hrecalled.opened _ _ hcommitted
  rcases keepsBar_cases s msg with hkeeps | ⟨abMsg, rfl, hkeeps⟩
  · by_cases hstarts : ∃ id, s.StartsOver msg id
    · obtain ⟨id, hstarts⟩ := hstarts
      obtain ⟨rfl, hrebuilt⟩ := hkeeps.rebuilt id hstarts
      have hrecord := hdate _ url hstarts (fun hcloses => notMem_of_closes hcloses hopen) hcommitted
      exact hrebuilt.shows hnodup (record_update hrecord hopen)
        (hrecalled.url_ne_nil _ _ hcommitted)
    · rcases hkeeps.same (not_exists.mp hstarts) with ⟨hactive, hchip, hurl⟩ | ⟨-, hfirst⟩
      · obtain ⟨hchip₀, hurl₀⟩ := h url (hactive ▸ hcommitted)
        exact ⟨hchip.trans hchip₀, hurl.trans hurl₀⟩
      · exact absurd hfirst (not_shownFirst hbefore hopen)
  · rcases hkeeps.same (fun _ => id) with ⟨hactive, hchip, hurl⟩ | ⟨-, hfirst⟩
    · have hsame : (s.update (.addressBar abMsg)).tabBar.activeId = s.tabBar.activeId := hactive
      obtain ⟨hchip₀, hurl₀⟩ := h url (hsame ▸ hcommitted)
      have hown := AddressBar.shows_update abMsg hchip₀ ?_ ?_
      · exact ⟨hchip.trans hown.1, hurl.trans (hown.2.trans hurl₀)⟩
      · rintro url' rfl
        exact harrives ⟨⟨url', rfl⟩, hsame.symm⟩
      · intro url' mode hevent
        exact hcommits url' ⟨abMsg, mode, rfl, hevent, rfl, hopen⟩
    · exact absurd hfirst (not_shownFirst (s := { s with addressBar := _ }) hbefore hopen)

/-- An address is shown where it is committed. -/
theorem shows_of_commits {msg : Message ρ} (hrecalled : Recalled tr s)
    (hnodup : (s.update msg).tabBar.ids.Nodup)
    (hcommits : Commits ⟨s, msg, s.update msg⟩ (s.update msg).tabBar.activeId url) :
    (s.update msg).addressBar.chipState = .hidden ∧
      (s.update msg).addressBar.currentUrl = url := by
  obtain ⟨rfl, hfocus, rfl, -, hopen⟩ := commits_iff.mp hcommits
  obtain ⟨hchip₀, hurl₀, -⟩ := AddressBar.update_commit hfocus
  rcases (keepsBar_addressBar s .navigatePressed).same (fun _ => id) with
    ⟨-, hchip, hurl⟩ | ⟨hrebuilt, hfirst⟩
  · exact ⟨hchip.trans hchip₀, hurl.trans hurl₀⟩
  · have hbefore : (s.update (.addressBar .navigatePressed)).tabBar.activeId ∉ s.tabBar.ids :=
      fun hmem => not_shownFirst (s := { s with addressBar := _ }) hmem hopen hfirst
    exact hrebuilt.shows hnodup (record_of_opened hcommits hbefore)
      hrecalled.typed.committedUrl_ne_nil

/-- **A message keeps what was committed shown exactly if the record is up to date** where it lets
the address bar start over. -/
theorem showsCommitted_update_iff {msg : Message ρ} (hrecalled : Recalled tr s)
    (h : ShowsCommitted tr s) (hnodup : (s.update msg).tabBar.ids.Nodup) :
    ShowsCommitted (tr ++ [⟨s, msg, s.update msg⟩]) (s.update msg) ↔
      UpToDate tr ⟨s, msg, s.update msg⟩ := by
  constructor
  · intro hshows id url hstarts hcloses hcommitted
    have hbefore := hrecalled.opened _ _ hcommitted
    have hopen : id ∈ (s.update msg).tabBar.ids := mem_ids_update hbefore hcloses
    -- it is not a message for the address bar
    have hmsg : ∀ abMsg, msg ≠ .addressBar abMsg := by
      rintro abMsg rfl
      exact hstarts
    obtain ⟨rfl, hrebuilt⟩ := (keepsBar_update hmsg).rebuilt id hstarts
    have hlater : Committed (tr ++ [⟨s, msg, s.update msg⟩]) (s.update msg).tabBar.activeId
        url := by
      refine since_snoc.mpr (.inr ⟨hcommitted, hopen, ?_, ?_⟩)
      · rintro ⟨⟨url', hinput⟩, -⟩
        exact hmsg _ hinput
      · rintro url' ⟨abMsg, mode, hinput, -⟩
        exact hmsg _ hinput
    obtain ⟨tab, hfind⟩ := Keyed.exists_find hopen
    obtain ⟨htab, hid⟩ := Keyed.mem_of_find hfind
    have hurl : tab.url = url := (hrebuilt tab hfind).1.symm.trans (hshows url hlater).2
    exact record_of_update hnodup hbefore (mem_records.mpr ⟨tab, htab, hid, hurl⟩)
  · intro hdate url hcommitted
    rcases since_snoc.mp hcommitted with hcommits | ⟨hbefore, hopen, harrives, hother⟩
    · exact shows_of_commits hrecalled hnodup hcommits
    · exact h.update hrecalled hnodup hdate hbefore harrives hother hopen

/-! ### Every run -/

theorem recalled_of_run {name : Text} (h : Run (ofFun stepAny) (new name : AppState ρ) tr s) :
    Recalled tr s := by
  refine h.invariant (I := Recalled) ?_ ?_
  · exact ⟨(strictShown_new name).nodup, .inl rfl, fun id url h => absurd h not_since_nil,
      fun id url h => absurd h not_since_nil⟩
  · rintro tr s msg s' hrun hrecalled hstep
    obtain rfl : s.update msg = s' := Option.some.inj hstep
    have hshown := strictShown_of_run (hrun.snoc hstep) (strictShown_new name)
    refine ⟨hshown.nodup, typed_update hrecalled.typed msg, fun id url hcommitted => ?_,
      fun id url hcommitted => ?_⟩
    · rcases since_snoc.mp hcommitted with hcommits | ⟨-, hopen, -⟩
      · exact (commits_iff.mp hcommits).2.2.2.2
      · exact hopen
    · rcases since_snoc.mp hcommitted with hcommits | ⟨hbefore, -⟩
      · obtain ⟨-, -, rfl, -⟩ := commits_iff.mp hcommits
        exact hrecalled.typed.committedUrl_ne_nil
      · exact hrecalled.url_ne_nil id url hbefore

/-- **The address bar shows the last address that was committed in the active tab**, without the
button that converts to Strict, after every step of a run from the start exactly if in every step
in which the bar starts over for a tab the record of the tab has it. -/
theorem shows_committed_iff {name : Text} (h : Run (ofFun stepAny) (new name : AppState ρ) tr s) :
    (∀ before x after, tr = before ++ x :: after → ShowsCommitted (before ++ [x]) x.post) ↔
      ∀ before x after, tr = before ++ x :: after → UpToDate before x := by
  refine h.forall_reached_iff (P := ShowsCommitted) (fun url h => absurd h not_since_nil) ?_
  rintro tr s msg s' hrun hshows hstep
  obtain rfl : s.update msg = s' := Option.some.inj hstep
  exact showsCommitted_update_iff (recalled_of_run hrun) hshows
    (recalled_of_run (hrun.snoc hstep)).nodup

/-- The address of the record is committed, another tab is looked at in between, and another address
is committed before the tab is left for good. -/
theorem shows_committed_iff_left : ∃ (tr : List (Step (AppState Rat) (Message Rat)))
    (s : AppState Rat), Run (ofFun stepAny) (new []) tr s ∧ tr.map Step.input =
      [.addressBar (.urlInputChanged "https://github.com/devbrowse".toList),
        .addressBar .navigatePressed, .tabBar (.tabActivated 0), .tabBar (.tabActivated 2),
        .addressBar (.urlInputChanged "mozilla.org".toList), .addressBar .navigatePressed,
        .tabBar (.tabActivated 0)] ∧
      ∀ before x after, tr = before ++ x :: after → ShowsCommitted (before ++ [x]) x.post := by
  let s₁ : AppState Rat :=
    (new []).update (.addressBar (.urlInputChanged "https://github.com/devbrowse".toList))
  let s₂ : AppState Rat := s₁.update (.addressBar .navigatePressed)
  let s₃ : AppState Rat := s₂.update (.tabBar (.tabActivated 0))
  let s₄ : AppState Rat := s₃.update (.tabBar (.tabActivated 2))
  let s₅ : AppState Rat := s₄.update (.addressBar (.urlInputChanged "mozilla.org".toList))
  let s₆ : AppState Rat := s₅.update (.addressBar .navigatePressed)
  let s₇ : AppState Rat := s₆.update (.tabBar (.tabActivated 0))
  let before : List (Step (AppState Rat) (Message Rat)) := [] ++
    [⟨new [], .addressBar (.urlInputChanged "https://github.com/devbrowse".toList), s₁⟩] ++
    [⟨s₁, .addressBar .navigatePressed, s₂⟩]
  let tr : List (Step (AppState Rat) (Message Rat)) := before ++
    [⟨s₂, .tabBar (.tabActivated 0), s₃⟩] ++ [⟨s₃, .tabBar (.tabActivated 2), s₄⟩] ++
    [⟨s₄, .addressBar (.urlInputChanged "mozilla.org".toList), s₅⟩] ++
    [⟨s₅, .addressBar .navigatePressed, s₆⟩] ++ [⟨s₆, .tabBar (.tabActivated 0), s₇⟩]
  have hrun : Run (ofFun stepAny) (new []) tr s₇ :=
    ((((((Run.nil.snoc rfl).snoc rfl).snoc rfl).snoc rfl).snoc rfl).snoc rfl).snoc rfl
  have hactive : s₂.tabBar.activeId = 2 ∧ s₆.tabBar.activeId = 2 := by decide +kernel
  -- nothing is ever committed in the tab 0, and in the tab 2 the address of its record
  have hfirst : ∀ {id url}, Committed before id url →
      id = 2 ∧ url = s₁.addressBar.committedUrl := by
    intro id url h
    rcases since_snoc.mp h with hcommits | ⟨hnone, -⟩
    · obtain ⟨-, -, hurl, hid, -⟩ := commits_iff.mp hcommits
      exact ⟨hid.symm.trans hactive.1, hurl⟩
    · exact absurd (committed_of_snoc (by simp) hnone) not_since_nil
  refine ⟨tr, s₇, hrun, rfl, (shows_committed_iff hrun).mpr ?_⟩
  simp only [tr, before, forall_cut_snoc]
  refine ⟨⟨⟨⟨⟨⟨⟨forall_cut_nil, fun _ _ => False.elim⟩, fun _ _ => False.elim⟩, ?_⟩, ?_⟩,
    fun _ _ => False.elim⟩, fun _ _ => False.elim⟩, ?_⟩
  · rintro id url ⟨rfl, -⟩ - hcommitted
    exact absurd (hfirst hcommitted).1 (by decide)
  · rintro id url ⟨rfl, -⟩ - hcommitted
    rw [(hfirst (committed_of_snoc (by simp) hcommitted)).2]
    show (2, s₁.addressBar.committedUrl) ∈ records s₃.tabBar.tabs
    decide +kernel
  · rintro id url ⟨rfl, -⟩ - hcommitted
    rcases since_snoc.mp hcommitted with hcommits | ⟨hearlier, -⟩
    · exact absurd ((commits_iff.mp hcommits).2.2.2.1.symm.trans hactive.2) (by decide)
    · have hkept := committed_of_snoc (by simp) (committed_of_snoc (by simp)
        (committed_of_snoc (by simp) hearlier))
      exact absurd (hfirst hkept).1 (by decide)

/-- **What was committed is shown** after every run in which each address that is committed while
there are tabs is that of the record of the active one. -/
theorem shows_committed {name : Text} (h : Run (ofFun stepAny) (new name : AppState ρ) tr s)
    (hwritten : ∀ x ∈ tr, x.pre.Written x.input) : ShowsCommitted tr s := by
  suffices hall : ShowsCommitted tr s ∧ RecordsAll tr s from hall.1
  refine h.invariant_where (I := fun tr s => ShowsCommitted tr s ∧ RecordsAll tr s) ?_ ?_ hwritten
  · exact ⟨fun url h => absurd h not_since_nil, fun id url h => absurd h not_since_nil⟩
  · rintro tr s msg s' hrun ⟨hshows, hrecords⟩ hstep hmsg
    obtain rfl : s.update msg = s' := Option.some.inj hstep
    refine ⟨(showsCommitted_update_iff (recalled_of_run hrun) hshows
      (recalled_of_run (hrun.snoc hstep)).nodup).mpr fun id url _ _ => hrecords id url, ?_⟩
    intro id url hcommitted
    rcases since_snoc.mp hcommitted with hcommits | ⟨hbefore, hopen, -, -⟩
    · exact record_of_commits hmsg hcommits
    · exact record_update (hrecords id url hbefore) hopen

/-- An address is committed in a new tab, and another tab is looked at in between: the address is
gone and the button is back. -/
theorem not_shows_committed : ¬ ∀ (tr : List (Step (AppState Rat) (Message Rat)))
    (s : AppState Rat), Run (ofFun stepAny) (new []) tr s → ShowsCommitted tr s := by
  intro hall
  let s₁ : AppState Rat := (new []).update (.profileLoaded [])
  let s₂ : AppState Rat := s₁.update (.tabBar .newTabPressed)
  let s₃ : AppState Rat := s₂.update (.addressBar (.urlInputChanged "mozilla.org".toList))
  let s₄ : AppState Rat := s₃.update (.addressBar .navigatePressed)
  let s₅ : AppState Rat := s₄.update (.tabBar (.tabActivated 0))
  let s₆ : AppState Rat := s₅.update (.tabBar (.tabActivated 5))
  let before : List (Step (AppState Rat) (Message Rat)) := [⟨new [], .profileLoaded [], s₁⟩,
    ⟨s₁, .tabBar .newTabPressed, s₂⟩,
    ⟨s₂, .addressBar (.urlInputChanged "mozilla.org".toList), s₃⟩]
  let after : List (Step (AppState Rat) (Message Rat)) := [⟨s₄, .tabBar (.tabActivated 0), s₅⟩,
    ⟨s₅, .tabBar (.tabActivated 5), s₆⟩]
  have hrun : Run (ofFun stepAny) (new [])
      (before ++ ⟨s₃, .addressBar .navigatePressed, s₄⟩ :: after) s₆ :=
    (((((Run.nil.snoc rfl).snoc rfl).snoc rfl).snoc rfl).snoc rfl).snoc rfl
  have hcommits : Commits ⟨s₃, .addressBar .navigatePressed, s₄⟩ 5 "mozilla.org".toList :=
    commits_iff.mpr ⟨rfl, by decide +kernel, by decide +kernel, by decide +kernel,
      by decide +kernel⟩
  have hopen : 5 ∈ s₅.tabBar.ids ∧ 5 ∈ s₆.tabBar.ids := by decide +kernel
  have hcommitted : Committed (before ++ ⟨s₃, .addressBar .navigatePressed, s₄⟩ :: after) 5
      "mozilla.org".toList := by
    refine ⟨before, _, after, rfl, hcommits, ?_⟩
    have hquiet : ∀ (s s' : AppState Rat) (id : ℕ), 5 ∈ s'.tabBar.ids →
        5 ∈ s'.tabBar.ids ∧ ¬ Arrives ⟨s, .tabBar (.tabActivated id), s'⟩ 5 ∧
          ∀ url', ¬ Commits ⟨s, .tabBar (.tabActivated id), s'⟩ 5 url' := by
      refine fun s s' id hmem => ⟨hmem, ?_, ?_⟩
      · rintro ⟨⟨url, ⟨⟩⟩, -⟩
      · rintro url' ⟨msg, mode, ⟨⟩, -⟩
    simp only [after, List.forall_mem_cons]
    exact ⟨hquiet _ _ 0 hopen.1, hquiet _ _ 5 hopen.2, by simp⟩
  have hactive : s₆.tabBar.activeId = 5 := by decide +kernel
  have hfresh : s₆.addressBar.chipState = .freshTab := by decide +kernel
  have hshows := hall _ _ hrun "mozilla.org".toList (hactive ▸ hcommitted)
  exact absurd (hfresh.symm.trans hshows.1) (by decide)

end AppState

end Ui

end DevBrowse
