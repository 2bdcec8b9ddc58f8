import DevBrowse.Dns.SingleFlight

/-!
# Who owns a slot

A slot is taken out by the leader it was opened by and by nobody else. So a slot is alive
exactly as long as its leader is, and whatever is dropped, no key ever has two leaders, and
a follower never hears from another leader than the one it joined
(`DevBrowse.Dns.SingleFlight.Wired`).

As long as no leader is dropped on the way, every slot therefore has a leader that goes on
to take it out and to serve who waits in it
(`DevBrowse.Dns.SingleFlight.alwaysSound_of_kept`). But nothing takes out the slot of a
leader that is dropped: it stays for good, and every call for its key joins it and waits
for nobody (`DevBrowse.Dns.SingleFlight.leaked_of_run`). The sending ends of the followers
stay in it, so they are not even told that the leader was cancelled.
-/

namespace DevBrowse

namespace Dns

open Transition (Step)

/-- A leader that has yet to take out its slot. -/
def Phase.holdsSlot : Phase → Bool
  | .created | .running | .finished _ => true
  | _ => false

/-- The outcome a leader has yet to hand on. -/
def Phase.inHand : Phase → Option Outcome
  | .finished outcome | .sending outcome _ => some outcome
  | _ => none

/-- The role that goes with a phase, as long as the future is not done. -/
def Phase.role : Phase → Option Role
  | .created | .running | .finished _ | .sending _ _ => some .leader
  | .waiting _ => some .follower
  | .returned _ | .dropped => none

namespace SingleFlight

variable {s s' : SingleFlight} {e : Event} {id l w : ℕ} {key : Key} {c c' : Call}
  {p p' : Phase} {o : Outcome} {query : ResolveQuery} {tr : List (Step SingleFlight Event)}
  {x : Step SingleFlight Event}

/-! ### What an event does -/

/-- The events that move one call on and touch nothing else. -/
inductive Advance (s : SingleFlight) (id : ℕ) : Event → Phase → Phase → Prop
  /-- A leader is polled for the first time. -/
  | start : Advance s id (.poll id) .created .running
  /-- A leader is polled while its inner resolution is in flight. -/
  | idle : Advance s id (.poll id) .running .running
  /-- A follower is polled, and there is nothing for it yet. -/
  | pending (h : s.SenderAlive id) : Advance s id (.poll id) (.waiting none) (.waiting none)
  /-- A follower takes the outcome out of its channel. -/
  | receive (o : Outcome) : Advance s id (.poll id) (.waiting (some o)) (.returned o)
  /-- A follower finds the sending end gone. -/
  | cancel (h : ¬ s.SenderAlive id) :
    Advance s id (.poll id) (.waiting none) (.returned (.error .cancelled))
  /-- The inner resolver comes back. -/
  | inner (o : Outcome) : Advance s id (.innerDone id o) .running (.finished o)
  /-- A leader has served everyone. -/
  | finish (o : Outcome) : Advance s id (.send id) (.sending o []) (.returned o)
  /-- A leader is dropped before it has taken out its slot. -/
  | abandon {p : Phase} (h : p.holdsSlot = true) : Advance s id (.drop id) p .dropped
  /-- A follower is dropped. -/
  | leave (received : Option Outcome) : Advance s id (.drop id) (.waiting received) .dropped

/-- **What an event does.** -/
theorem step_cases (h : s.step e = some s') :
    (∃ query, e = .resolve query ∧ s' = s.resolve query) ∨
    (∃ id c p', s.callAt id = some c ∧ Advance s id e c.phase p' ∧ s' = s.setPhase id p') ∨
    (∃ id c o, e = .removeSlot id ∧ s.callAt id = some c ∧ c.phase = .finished o ∧
      s' = { s.setPhase id (.sending o ((s.inflight.lookup c.query.key).getD [])) with
        inflight := s.inflight.erase c.query.key }) ∨
    ∃ id c o w ws, e = .send id ∧ s.callAt id = some c ∧ c.phase = .sending o (w :: ws) ∧
      s' = (s.deliver w o.clone).setPhase id (.sending o ws) := by
  cases e with
  | resolve query => exact Or.inl ⟨query, rfl, (Option.some.inj h).symm⟩
  | poll id =>
    refine Or.inr (Or.inl ?_)
    simp only [step, Option.bind_eq_bind, Option.bind_eq_some_iff, Option.some.injEq] at h
    obtain ⟨⟨query, role, p⟩, hc, p', hp', rfl⟩ := h
    refine ⟨id, _, p', hc, ?_, rfl⟩
    match p, hp' with
    | .created, hp' =>
      obtain rfl := Option.some.inj hp'
      exact .start
    | .running, hp' =>
      obtain rfl := Option.some.inj hp'
      exact .idle
    | .waiting (some o), hp' =>
      obtain rfl := Option.some.inj hp'
      exact .receive o
    | .waiting none, hp' =>
      rw [polled] at hp'
      split at hp' <;> obtain rfl := Option.some.inj hp'
      · exact .pending (by assumption)
      · exact .cancel (by assumption)
  | innerDone id o =>
    refine Or.inr (Or.inl ?_)
    simp only [step] at h
    split at h
    · rename_i hc
      exact ⟨id, _, _, hc, .inner o, (Option.some.inj h).symm⟩
    · simp at h
  | removeSlot id =>
    refine Or.inr (Or.inr (Or.inl ?_))
    simp only [step] at h
    split at h
    · rename_i hc
      exact ⟨id, _, _, rfl, hc, rfl, (Option.some.inj h).symm⟩
    · simp at h
  | send id =>
    simp only [step] at h
    split at h
    · rename_i hc
      exact Or.inr (Or.inr (Or.inr ⟨id, _, _, _, _, rfl, hc, rfl, (Option.some.inj h).symm⟩))
    · rename_i hc
      exact Or.inr (Or.inl ⟨id, _, _, hc, .finish _, (Option.some.inj h).symm⟩)
    · simp at h
  | drop id =>
    refine Or.inr (Or.inl ?_)
    simp only [step] at h
    split at h
    · rename_i hc
      exact ⟨id, _, _, hc, .abandon rfl, (Option.some.inj h).symm⟩
    · rename_i hc
      exact ⟨id, _, _, hc, .abandon rfl, (Option.some.inj h).symm⟩
    · rename_i hc
      exact ⟨id, _, _, hc, .leave _, (Option.some.inj h).symm⟩
    · simp at h

theorem Advance.holds (h : Advance s id e p p') : p'.holdsSlot = true → p.holdsSlot = true := by
  cases h <;> simp [Phase.holdsSlot]

theorem Advance.toServe (h : Advance s id e p p') : p.toServe = [] ∧ p'.toServe = [] := by
  cases h with
  | abandon h =>
    cases p with
    | sending => simp [Phase.holdsSlot] at h
    | _ => exact ⟨rfl, rfl⟩
  | _ => exact ⟨rfl, rfl⟩

theorem Advance.inHand (h : Advance s id e p p') (hp : p'.inHand = some o) :
    e = .innerDone id o := by
  cases h <;> simp_all [Phase.inHand]

theorem Advance.waiting (h : Advance s id e p p') (hp : p' = .waiting none) :
    p = .waiting none := by
  cases h <;> simp_all

theorem Advance.role (h : Advance s id e p p') {role : Role} (hp : p'.role = some role) :
    p.role = some role := by
  cases h <;> simp_all [Phase.role]

/-- A future that is done took its outcome out of its channel, or is a leader, or found the
sending end gone. -/
theorem Advance.returned (h : Advance s id e p p') (hp : p' = .returned o) :
    p = .waiting (some o) ∨ p.role = some .leader ∨ p = .waiting none ∧ ¬ s.SenderAlive id := by
  cases h <;> simp_all [Phase.role]

theorem Advance.ne_waiting_some (h : Advance s id e p p') : p' ≠ .waiting (some o) := by
  cases h <;> simp

theorem callAt_setPhase (s : SingleFlight) (id : ℕ) (p : Phase) (j : ℕ) :
    (s.setPhase id p).callAt j =
      (s.callAt j).map fun c => if j = id then { c with phase := p } else c := by
  rw [callAt, callAt, setPhase, List.getElem?_modify]
  cases s.calls[j]? with
  | none => rfl
  | some c =>
    by_cases h : j = id
    · simp [h]
    · simp [h, Ne.symm h]

/-- The calls after one of them was moved on, in terms of those before. -/
theorem of_setPhase (h : (s.setPhase id p).callAt l = some c') :
    ∃ c, s.callAt l = some c ∧ c'.query = c.query ∧ c'.role = c.role ∧
      (l = id ∧ c'.phase = p ∨ l ≠ id ∧ c'.phase = c.phase) := by
  rw [callAt_setPhase, Option.map_eq_some_iff] at h
  obtain ⟨c, hc, rfl⟩ := h
  refine ⟨c, hc, ?_⟩
  by_cases hl : l = id
  · simp [hl]
  · simp [hl]

theorem setPhase_self (h : s.callAt id = some c) (p : Phase) :
    (s.setPhase id p).callAt id = some { c with phase := p } := by
  rw [callAt_setPhase, h]
  simp

theorem setPhase_of_ne (h : l ≠ id) (p : Phase) :
    (s.setPhase id p).callAt l = s.callAt l := by
  rw [callAt_setPhase]
  cases s.callAt l <;> simp [h]

/-! ### The history of a call -/

/-- The call is a leader that has yet to take out the slot of the key. -/
def Leads (s : SingleFlight) (id : ℕ) (key : Key) : Prop :=
  ∃ c, s.callAt id = some c ∧ c.query.key = key ∧ c.phase.holdsSlot = true

/-- The follower joined the leader when it was called. -/
def Joined (tr : List (Step SingleFlight Event)) (w l : ℕ) : Prop :=
  ∃ x ∈ tr, ∃ query, x.input = .resolve query ∧ x.pre.calls.length = w ∧ x.pre.Leads l query.key

/-- The inner resolver of the leader came back with the outcome. -/
def Obtained (tr : List (Step SingleFlight Event)) (l : ℕ) (o : Outcome) : Prop :=
  ∃ x ∈ tr, x.input = .innerDone l o

theorem Joined.concat (h : Joined tr w l) (x : Step SingleFlight Event) :
    Joined (tr ++ [x]) w l := by
  obtain ⟨y, hy, hjoined⟩ := h
  exact ⟨y, List.mem_append_left _ hy, hjoined⟩

theorem Obtained.concat (h : Obtained tr l o) (x : Step SingleFlight Event) :
    Obtained (tr ++ [x]) l o := by
  obtain ⟨y, hy, hinput⟩ := h
  exact ⟨y, List.mem_append_left _ hy, hinput⟩

/-- The follower got the clone of what the leader it joined obtained. -/
def Heard (tr : List (Step SingleFlight Event)) (w : ℕ) (o : Outcome) : Prop :=
  ∃ l o', Joined tr w l ∧ Obtained tr l o' ∧ o = o'.clone

theorem Heard.concat (h : Heard tr w o) (x : Step SingleFlight Event) : Heard (tr ++ [x]) w o := by
  obtain ⟨l, o', hjoined, hobtained, heq⟩ := h
  exact ⟨l, o', hjoined.concat x, hobtained.concat x, heq⟩

/-! ### How calls and slots hang together -/

/-- **How calls and slots hang together**, whatever is dropped. -/
structure Wired (tr : List (Step SingleFlight Event)) (s : SingleFlight) : Prop where
  /-- The slot of a leader is there until it takes it out. -/
  mem_inflight : ∀ l key, s.Leads l key → key ∈ s.inflight
  /-- No key has two leaders. -/
  unique : ∀ l l' key, s.Leads l key → s.Leads l' key → l = l'
  /-- Who waits in a slot joined its leader. -/
  slot : ∀ key ws, s.inflight.lookup key = some ws → ∀ w ∈ ws, ∀ l, s.Leads l key → Joined tr w l
  /-- Whom a leader serves joined it. -/
  serving : ∀ l c, s.callAt l = some c → ∀ w ∈ c.phase.toServe, Joined tr w l
  /-- What a leader hands on is what it obtained. -/
  inHand : ∀ l c o, s.callAt l = some c → c.phase.inHand = some o → Obtained tr l o
  /-- The sending end of a follower without outcome is in some slot or some leader's hands. -/
  alive : ∀ w c, s.callAt w = some c → c.phase = .waiting none → s.SenderAlive w
  /-- What is in a follower's channel, or was taken out of it, comes from its leader. -/
  heard : ∀ w c o, s.callAt w = some c →
    c.phase = .waiting (some o) ∨ c.role = .follower ∧ c.phase = .returned o → Heard tr w o
  /-- Leaders lead and followers wait. -/
  role_eq : ∀ id c role, s.callAt id = some c → c.phase.role = some role → c.role = role

theorem wired_new : Wired [] new := by
  constructor <;> simp [new, Leads, callAt]

/-- A call is moved on in a way the others do not notice. -/
theorem Leads.of_setPhase (hc : s.callAt id = some c)
    (hholds : p.holdsSlot = true → c.phase.holdsSlot = true)
    (h : (s.setPhase id p).Leads l key) : s.Leads l key := by
  obtain ⟨c', hc', hkey, hp⟩ := h
  obtain ⟨c₀, hc₀, hquery, -, ⟨rfl, hphase⟩ | ⟨hne, hphase⟩⟩ := SingleFlight.of_setPhase hc'
  · obtain rfl : c₀ = c := Option.some.inj (hc₀.symm.trans hc)
    exact ⟨c₀, hc₀, by rw [← hquery, hkey], hholds (hphase ▸ hp)⟩
  · exact ⟨c₀, hc₀, by rw [← hquery, hkey], hphase ▸ hp⟩

theorem senderAlive_iff : s.SenderAlive w ↔
    (∃ key ws, s.inflight.lookup key = some ws ∧ w ∈ ws) ∨
      ∃ l c, s.callAt l = some c ∧ w ∈ c.phase.toServe := by
  refine or_congr ⟨?_, ?_⟩ ⟨?_, ?_⟩
  · rintro ⟨⟨key, ws⟩, he, hw⟩
    exact ⟨key, ws, AList.mem_lookup_iff.mpr he, hw⟩
  · rintro ⟨key, ws, hlook, hw⟩
    exact ⟨⟨key, ws⟩, AList.mem_lookup_iff.mp hlook, hw⟩
  · rintro ⟨c, hc, hw⟩
    obtain ⟨l, hl⟩ := List.mem_iff_getElem?.mp hc
    exact ⟨l, c, hl, hw⟩
  · rintro ⟨l, c, hl, hw⟩
    exact ⟨c, List.mem_of_getElem? hl, hw⟩

/-- A sending end stays where it is if the call that is moved on does not lose it. -/
theorem SenderAlive.setPhase (h : s.SenderAlive w) (hc : s.callAt id = some c)
    (hserve : w ∈ c.phase.toServe → w ∈ p.toServe) : (s.setPhase id p).SenderAlive w := by
  rw [senderAlive_iff] at h ⊢
  rcases h with hslot | ⟨l, c', hc', hw⟩
  · exact Or.inl hslot
  · refine Or.inr ⟨l, ?_⟩
    by_cases hl : l = id
    · subst hl
      obtain rfl : c' = c := Option.some.inj (hc'.symm.trans hc)
      exact ⟨_, setPhase_self hc p, hserve hw⟩
    · exact ⟨c', (setPhase_of_ne hl p).trans hc', hw⟩

theorem Wired.concat (h : Wired tr s) (x : Step SingleFlight Event) : Wired (tr ++ [x]) s where
  mem_inflight := h.mem_inflight
  unique := h.unique
  slot key ws hlook w hw l hl := (h.slot key ws hlook w hw l hl).concat x
  serving l c hc w hw := (h.serving l c hc w hw).concat x
  inHand l c o hc hp := (h.inHand l c o hc hp).concat x
  alive := h.alive
  heard w c o hc hp := (h.heard w c o hc hp).concat x
  role_eq := h.role_eq

/-- **Moving one call on.** -/
theorem Wired.setPhase (h : Wired tr s) (hc : s.callAt id = some c)
    (hholds : p.holdsSlot = true → c.phase.holdsSlot = true)
    (hserve : ∀ w ∈ p.toServe, w ∈ c.phase.toServe)
    (hhand : ∀ o, p.inHand = some o → Obtained tr id o)
    (halive : ∀ w c', (s.setPhase id p).callAt w = some c' → c'.phase = .waiting none →
      (s.setPhase id p).SenderAlive w)
    (hheard : ∀ o, p = .waiting (some o) ∨ c.role = .follower ∧ p = .returned o → Heard tr id o)
    (hrole : ∀ role, p.role = some role → c.role = role) : Wired tr (s.setPhase id p) := by
  have hback : ∀ l key, (s.setPhase id p).Leads l key → s.Leads l key := fun l key hl =>
    hl.of_setPhase hc hholds
  constructor
  case mem_inflight =>
    exact fun l key hl => h.mem_inflight l key (hback l key hl)
  case unique =>
    exact fun l l' key hl hl' => h.unique l l' key (hback l key hl) (hback l' key hl')
  case slot =>
    exact fun key ws hlook w hw l hl => h.slot key ws hlook w hw l (hback l key hl)
  case serving =>
    intro l c' hc' w hw
    obtain ⟨c₀, hc₀, -, -, ⟨rfl, hp⟩ | ⟨-, hp⟩⟩ := of_setPhase hc'
    · exact h.serving l c hc w (hserve w (hp ▸ hw))
    · exact h.serving l c₀ hc₀ w (hp ▸ hw)
  case inHand =>
    intro l c' o hc' hhand'
    obtain ⟨c₀, hc₀, -, -, ⟨rfl, hp⟩ | ⟨-, hp⟩⟩ := of_setPhase hc'
    · exact hhand o (hp ▸ hhand')
    · exact h.inHand l c₀ o hc₀ (hp ▸ hhand')
  case alive =>
    exact halive
  case heard =>
    intro w c' o hc' hout
    obtain ⟨c₀, hc₀, -, hr, ⟨rfl, hp⟩ | ⟨-, hp⟩⟩ := of_setPhase hc'
    · obtain rfl : c₀ = c := Option.some.inj (hc₀.symm.trans hc)
      exact hheard o (by rwa [hp, hr] at hout)
    · exact h.heard w c₀ o hc₀ (by rwa [hp, hr] at hout)
  case role_eq =>
    intro l c' role hc' hrole'
    obtain ⟨c₀, hc₀, -, hr, ⟨rfl, hp⟩ | ⟨-, hp⟩⟩ := of_setPhase hc'
    · obtain rfl : c₀ = c := Option.some.inj (hc₀.symm.trans hc)
      exact hr.trans (hrole role (hp ▸ hrole'))
    · exact hr.trans (h.role_eq l c₀ role hc₀ (hp ▸ hrole'))

theorem Wired.advance (h : Wired tr s) (hc : s.callAt id = some c)
    (hadv : Advance s id e c.phase p) :
    Wired (tr ++ [⟨s, e, s.setPhase id p⟩]) (s.setPhase id p) := by
  refine (h.concat _).setPhase hc hadv.holds ?_ ?_ ?_ ?_ ?_
  · rw [hadv.toServe.2]
    simp
  · exact fun o ho => ⟨_, List.mem_append_right _ (List.mem_singleton_self _), hadv.inHand ho⟩
  · intro w c' hc' hp
    refine SenderAlive.setPhase ?_ hc (by simp [hadv.toServe.1])
    obtain ⟨c₀, hc₀, -, -, ⟨rfl, hp'⟩ | ⟨-, hp'⟩⟩ := of_setPhase hc'
    · exact h.alive w c hc (hadv.waiting (hp'.symm.trans hp))
    · exact h.alive w c₀ hc₀ (hp'.symm.trans hp)
  · rintro o (hp | ⟨hrole, hp⟩)
    · exact absurd hp hadv.ne_waiting_some
    · refine Heard.concat ?_ _
      rcases hadv.returned hp with hsome | hleader | ⟨hnone, hgone⟩
      · exact h.heard id c o hc (Or.inl hsome)
      · have := h.role_eq id c _ hc hleader
        simp [hrole] at this
      · exact absurd (h.alive id c hc hnone) hgone
  · exact fun role hrole => h.role_eq id c role hc (hadv.role hrole)

/-! ### A call arrives -/

theorem resolve_leader (h : s.inflight.lookup query.key = none) :
    s.resolve query =
      ⟨s.inflight.insert query.key [], s.calls ++ [⟨query, .leader, .created⟩]⟩ := by
  rw [resolve, h]

theorem resolve_follower {ws : List ℕ} (h : s.inflight.lookup query.key = some ws) :
    s.resolve query = ⟨s.inflight.insert query.key (ws ++ [s.calls.length]),
      s.calls ++ [⟨query, .follower, .waiting none⟩]⟩ := by
  rw [resolve, h]

/-- The calls after an arrival are the ones before, and the one that arrived. -/
theorem callAt_resolve (h : (s.resolve query).callAt id = some c) :
    s.callAt id = some c ∨ id = s.calls.length ∧ c.query = query ∧
      (s.inflight.lookup query.key = none ∧ c.role = .leader ∧ c.phase = .created ∨
        query.key ∈ s.inflight ∧ c.role = .follower ∧ c.phase = .waiting none) := by
  cases hlook : s.inflight.lookup query.key with
  | none =>
    rw [resolve_leader hlook, callAt, List.getElem?_append] at h
    split at h
    · exact Or.inl h
    · obtain ⟨hid, rfl⟩ := List.getElem?_eq_some_iff.mp h
      rename_i hge
      simp only [List.length_singleton] at hid
      exact Or.inr ⟨by omega, by simp⟩
  | some ws =>
    rw [resolve_follower hlook, callAt, List.getElem?_append] at h
    split at h
    · exact Or.inl h
    · obtain ⟨hid, rfl⟩ := List.getElem?_eq_some_iff.mp h
      rename_i hge
      simp only [List.length_singleton] at hid
      exact Or.inr ⟨by omega, by simp [HashMap.mem_iff_lookup, hlook]⟩

theorem callAt_resolve_of_some (h : s.callAt id = some c) :
    (s.resolve query).callAt id = some c := by
  have hlt := (List.getElem?_eq_some_iff.mp h).1
  cases hlook : s.inflight.lookup query.key with
  | none => rw [resolve_leader hlook, callAt, List.getElem?_append_left hlt]; exact h
  | some ws => rw [resolve_follower hlook, callAt, List.getElem?_append_left hlt]; exact h

/-- Who leads after an arrival led before, or is the one that arrived. -/
theorem Leads.of_resolve (h : (s.resolve query).Leads l key) :
    s.Leads l key ∨ l = s.calls.length ∧ key = query.key ∧ s.inflight.lookup query.key = none := by
  obtain ⟨c, hc, hkey, hp⟩ := h
  rcases callAt_resolve hc with hold | ⟨hl, hquery, ⟨hnone, -, -⟩ | ⟨-, -, hphase⟩⟩
  · exact Or.inl ⟨c, hold, hkey, hp⟩
  · exact Or.inr ⟨hl, by rw [← hkey, hquery], hnone⟩
  · simp [hphase, Phase.holdsSlot] at hp

theorem lookup_resolve (s : SingleFlight) (query : ResolveQuery) (key : Key) :
    (s.resolve query).inflight.lookup key =
      if key = query.key then
        some (match s.inflight.lookup query.key with
          | some ws => ws ++ [s.calls.length]
          | none => [])
      else s.inflight.lookup key := by
  cases hlook : s.inflight.lookup query.key with
  | none => rw [resolve_leader hlook, HashMap.lookup_insert_eq]
  | some ws => rw [resolve_follower hlook, HashMap.lookup_insert_eq]

theorem SenderAlive.resolve (h : s.SenderAlive w) (query : ResolveQuery) :
    (s.resolve query).SenderAlive w := by
  rw [senderAlive_iff] at h ⊢
  rcases h with ⟨key, ws, hlook, hw⟩ | ⟨l, c, hc, hw⟩
  · by_cases hkey : key = query.key
    · subst hkey
      exact Or.inl ⟨query.key, ws ++ [s.calls.length], by rw [lookup_resolve, if_pos rfl, hlook],
        List.mem_append_left _ hw⟩
    · exact Or.inl ⟨key, ws, by rw [lookup_resolve, if_neg hkey, hlook], hw⟩
  · exact Or.inr ⟨l, c, callAt_resolve_of_some hc, hw⟩

theorem Wired.resolve (h : Wired tr s) (query : ResolveQuery) :
    Wired (tr ++ [⟨s, .resolve query, s.resolve query⟩]) (s.resolve query) := by
  have hmem : ∀ key, key ∈ (s.resolve query).inflight ↔ key = query.key ∨ key ∈ s.inflight := by
    intro key
    rw [HashMap.mem_iff_lookup, HashMap.mem_iff_lookup, lookup_resolve]
    by_cases hkey : key = query.key <;> simp [hkey]
  constructor
  case mem_inflight =>
    intro l key hl
    rw [hmem]
    rcases hl.of_resolve with hold | ⟨-, rfl, -⟩
    · exact Or.inr (h.mem_inflight l key hold)
    · exact Or.inl rfl
  case unique =>
    intro l l' key hl hl'
    -- a leader arrives only where there is no slot, and so no other leader
    have hnot : ∀ l, s.inflight.lookup query.key = none → ¬ s.Leads l query.key := by
      intro l hnone hold
      obtain ⟨ws, hws⟩ := HashMap.mem_iff_lookup.mp (h.mem_inflight l _ hold)
      simp [hnone] at hws
    rcases hl.of_resolve with hold | ⟨rfl, rfl, hnone⟩
    · rcases hl'.of_resolve with hold' | ⟨-, rfl, hnone⟩
      · exact h.unique l l' key hold hold'
      · exact absurd hold (hnot l hnone)
    · rcases hl'.of_resolve with hold' | ⟨rfl, -, -⟩
      · exact absurd hold' (hnot l' hnone)
      · rfl
  case slot =>
    intro key ws hlook w hw l hl
    rcases hl.of_resolve with hold | ⟨rfl, rfl, hnone⟩
    · rw [lookup_resolve] at hlook
      by_cases hkey : key = query.key
      · subst hkey
        rw [if_pos rfl, Option.some.injEq] at hlook
        subst hlook
        split at hw
        · rename_i ws hws
          rcases List.mem_append.mp hw with hmem | hmem
          · exact (h.slot _ ws hws w hmem l hold).concat _
          · exact ⟨_, List.mem_append_right _ (List.mem_singleton_self _), query, rfl,
              (List.mem_singleton.mp hmem).symm, hold⟩
        · simp at hw
      · rw [if_neg hkey] at hlook
        exact (h.slot key ws hlook w hw l hold).concat _
    · rw [lookup_resolve, if_pos rfl, hnone, Option.some.injEq] at hlook
      subst hlook
      simp at hw
  case serving =>
    intro l c hc w hw
    rcases callAt_resolve hc with hold | ⟨-, -, ⟨-, -, hp⟩ | ⟨-, -, hp⟩⟩
    · exact (h.serving l c hold w hw).concat _
    · simp [hp, Phase.toServe] at hw
    · simp [hp, Phase.toServe] at hw
  case inHand =>
    intro l c o hc ho
    rcases callAt_resolve hc with hold | ⟨-, -, ⟨-, -, hp⟩ | ⟨-, -, hp⟩⟩
    · exact (h.inHand l c o hold ho).concat _
    · simp [hp, Phase.inHand] at ho
    · simp [hp, Phase.inHand] at ho
  case alive =>
    intro w c hc hp
    rcases callAt_resolve hc with hold | ⟨rfl, -, ⟨-, -, hp'⟩ | ⟨hin, -, -⟩⟩
    · exact (h.alive w c hold hp).resolve query
    · simp [hp] at hp'
    · -- the new follower left its sending end in the slot
      obtain ⟨ws, hws⟩ := HashMap.mem_iff_lookup.mp hin
      exact senderAlive_iff.mpr (Or.inl ⟨query.key, ws ++ [s.calls.length],
        by rw [lookup_resolve, if_pos rfl, hws], by simp⟩)
  case heard =>
    intro w c o hc hout
    rcases callAt_resolve hc with hold | ⟨-, -, ⟨-, hr, hp⟩ | ⟨-, -, hp⟩⟩
    · exact (h.heard w c o hold hout).concat _
    · simp [hr, hp] at hout
    · simp [hp] at hout
  case role_eq =>
    intro id c role hc hrole
    rcases callAt_resolve hc with hold | ⟨-, -, ⟨-, hr, hp⟩ | ⟨-, hr, hp⟩⟩
    · exact h.role_eq id c role hold hrole
    · simpa [hp, hr, Phase.role] using hrole
    · simpa [hp, hr, Phase.role] using hrole

/-! ### A leader takes out its slot and serves who waits in it -/

/-- The wrapper after a leader took out its slot. -/
def takeOut (s : SingleFlight) (id : ℕ) (key : Key) (o : Outcome) : SingleFlight :=
  { s.setPhase id (.sending o ((s.inflight.lookup key).getD [])) with
    inflight := s.inflight.erase key }

theorem callAt_takeOut (s : SingleFlight) (id : ℕ) (key : Key) (o : Outcome) (l : ℕ) :
    (s.takeOut id key o).callAt l =
      (s.setPhase id (.sending o ((s.inflight.lookup key).getD []))).callAt l := rfl

theorem lookup_takeOut (s : SingleFlight) (id : ℕ) (key : Key) (o : Outcome) (key' : Key) :
    (s.takeOut id key o).inflight.lookup key' =
      if key' = key then none else s.inflight.lookup key' :=
  HashMap.lookup_erase_eq _ _ _

/-- Who leads after a slot was taken out led before, for another key. -/
theorem Wired.leads_of_takeOut {key' : Key} (h : Wired tr s) (hlead : s.Leads id key)
    (hl : (s.takeOut id key o).Leads l key') : s.Leads l key' ∧ key' ≠ key := by
  obtain ⟨c', hc', hkey, hholds⟩ := hl
  rw [callAt_takeOut] at hc'
  obtain ⟨c₀, hc₀, hquery, -, ⟨-, hp⟩ | ⟨hne, hp⟩⟩ := of_setPhase hc'
  · simp [hp, Phase.holdsSlot] at hholds
  · have hold : s.Leads l key' := ⟨c₀, hc₀, by rw [← hquery, hkey], hp ▸ hholds⟩
    refine ⟨hold, ?_⟩
    rintro rfl
    exact hne (h.unique l id _ hold hlead)

theorem Wired.takeOut (h : Wired tr s) (hc : s.callAt id = some c) (hp : c.phase = .finished o) :
    Wired tr (s.takeOut id c.query.key o) := by
  have hlead : s.Leads id c.query.key := ⟨c, hc, rfl, by rw [hp]; rfl⟩
  have hback : ∀ l key, (s.takeOut id c.query.key o).Leads l key →
      s.Leads l key ∧ key ≠ c.query.key := fun l key => h.leads_of_takeOut hlead
  constructor
  case mem_inflight =>
    intro l key hl
    obtain ⟨hold, hne⟩ := hback l key hl
    rw [HashMap.mem_iff_lookup, lookup_takeOut, if_neg hne, ← HashMap.mem_iff_lookup]
    exact h.mem_inflight l key hold
  case unique =>
    exact fun l l' key hl hl' => h.unique l l' key (hback l key hl).1 (hback l' key hl').1
  case slot =>
    intro key ws hws w hw l hl
    obtain ⟨hold, hne⟩ := hback l key hl
    rw [lookup_takeOut, if_neg hne] at hws
    exact h.slot key ws hws w hw l hold
  case serving =>
    intro l c' hc' w hw
    rw [callAt_takeOut] at hc'
    obtain ⟨c₀, hc₀, -, -, ⟨rfl, hp'⟩ | ⟨-, hp'⟩⟩ := of_setPhase hc'
    · rw [hp'] at hw
      cases hslot : s.inflight.lookup c.query.key with
      | none => simp [hslot, Phase.toServe] at hw
      | some ws => exact h.slot _ ws hslot w (by simpa [hslot, Phase.toServe] using hw) _ hlead
    · exact h.serving l c₀ hc₀ w (hp' ▸ hw)
  case inHand =>
    intro l c' o' hc' ho
    rw [callAt_takeOut] at hc'
    obtain ⟨c₀, hc₀, -, -, ⟨rfl, hp'⟩ | ⟨-, hp'⟩⟩ := of_setPhase hc'
    · obtain rfl : o = o' := by simpa [hp', Phase.inHand] using ho
      exact h.inHand l c o hc (by rw [hp]; rfl)
    · exact h.inHand l c₀ o' hc₀ (hp' ▸ ho)
  case alive =>
    intro w c' hc' hwait
    rw [callAt_takeOut] at hc'
    obtain ⟨c₀, hc₀, -, -, ⟨-, hp'⟩ | ⟨-, hp'⟩⟩ := of_setPhase hc'
    · simp [hwait] at hp'
    · rw [senderAlive_iff]
      rcases senderAlive_iff.mp (h.alive w c₀ hc₀ (hp'.symm.trans hwait)) with
        ⟨key, ws, hws, hw⟩ | ⟨l, c₁, hc₁, hw⟩
      · by_cases hkey : key = c.query.key
        · -- the waiters of the slot are in the hands of the leader now
          subst hkey
          exact Or.inr ⟨id, _, setPhase_self hc _, by simpa [Phase.toServe, hws] using hw⟩
        · exact Or.inl ⟨key, ws, by rw [lookup_takeOut, if_neg hkey, hws], hw⟩
      · have hne : l ≠ id := by
          rintro rfl
          obtain rfl : c₁ = c := Option.some.inj (hc₁.symm.trans hc)
          simp [hp, Phase.toServe] at hw
        exact Or.inr ⟨l, c₁, (setPhase_of_ne hne _).trans hc₁, hw⟩
  case heard =>
    intro w c' o' hc' hout
    rw [callAt_takeOut] at hc'
    obtain ⟨c₀, hc₀, -, hr, ⟨-, hp'⟩ | ⟨-, hp'⟩⟩ := of_setPhase hc'
    · simp [hp'] at hout
    · exact h.heard w c₀ o' hc₀ (by rwa [hp', hr] at hout)
  case role_eq =>
    intro l c' role hc' hrole
    rw [callAt_takeOut] at hc'
    obtain ⟨c₀, hc₀, -, hr, ⟨rfl, hp'⟩ | ⟨-, hp'⟩⟩ := of_setPhase hc'
    · obtain rfl : c₀ = c := Option.some.inj (hc₀.symm.trans hc)
      exact hr.trans (h.role_eq l c₀ role hc₀ (by simpa [hp, hp', Phase.role] using hrole))
    · exact hr.trans (h.role_eq l c₀ role hc₀ (hp' ▸ hrole))

theorem deliver_cases (s : SingleFlight) (w : ℕ) (o : Outcome) :
    (∃ c, s.callAt w = some c ∧ c.phase = .waiting none ∧
      s.deliver w o = s.setPhase w (.waiting (some o))) ∨
    ((∀ c, s.callAt w = some c → c.phase ≠ .waiting none) ∧ s.deliver w o = s) := by
  rw [deliver]
  split
  · rename_i hc
    exact Or.inl ⟨_, hc, rfl, rfl⟩
  · rename_i hnot
    refine Or.inr ⟨fun c hc hp => ?_, rfl⟩
    obtain ⟨query, role, phase⟩ := c
    exact hnot query role (hp ▸ hc)

/-- The outcome reaches the waiter's channel. -/
theorem Wired.deliver (h : Wired tr s) (hheard : Heard tr w o) : Wired tr (s.deliver w o) := by
  rcases deliver_cases s w o with ⟨c, hc, hp, heq⟩ | ⟨-, heq⟩
  · rw [heq]
    refine h.setPhase hc (by simp [Phase.holdsSlot]) (by simp [Phase.toServe])
      (by simp [Phase.inHand]) ?_ ?_ ?_
    · intro w' c' hc' hwait
      obtain ⟨c₀, hc₀, -, -, ⟨-, hp'⟩ | ⟨-, hp'⟩⟩ := of_setPhase hc'
      · simp [hwait] at hp'
      · exact (h.alive w' c₀ hc₀ (hp'.symm.trans hwait)).setPhase hc (by simp [hp, Phase.toServe])
    · rintro o' (hout | ⟨-, hout⟩)
      · obtain rfl : o = o' := by simpa using hout
        exact hheard
      · simp at hout
    · intro role hrole
      exact h.role_eq w c role hc (by simpa [hp, Phase.role] using hrole)
  · rw [heq]
    exact h

theorem Wired.send {ws : List ℕ} (h : Wired tr s) (hc : s.callAt id = some c)
    (hp : c.phase = .sending o (w :: ws)) :
    Wired tr ((s.deliver w o.clone).setPhase id (.sending o ws)) := by
  have hheard : Heard tr w o.clone := ⟨id, o, h.serving id c hc w (by simp [hp, Phase.toServe]),
    h.inHand id c o hc (by rw [hp]; rfl), rfl⟩
  have hd := h.deliver hheard
  have hc' : (s.deliver w o.clone).callAt id = some c ∧
      ∀ c', (s.deliver w o.clone).callAt w = some c' → c'.phase ≠ .waiting none := by
    rcases deliver_cases s w o.clone with ⟨c₀, hc₀, hp₀, heq⟩ | ⟨hnot, heq⟩
    · have hne : id ≠ w := by
        rintro rfl
        obtain rfl : c₀ = c := Option.some.inj (hc₀.symm.trans hc)
        simp [hp] at hp₀
      rw [heq]
      refine ⟨(setPhase_of_ne hne _).trans hc, fun c' hc' => ?_⟩
      obtain rfl := Option.some.inj ((setPhase_self hc₀ _).symm.trans hc')
      simp
    · rw [heq]
      exact ⟨hc, hnot⟩
  refine hd.setPhase hc'.1 (by simp [Phase.holdsSlot]) ?_ ?_ ?_ (by simp) ?_
  · intro w' hw'
    rw [hp]
    exact List.mem_cons_of_mem _ hw'
  · intro o' ho'
    exact hd.inHand id c o' hc'.1 (by simpa [hp, Phase.inHand] using ho')
  · intro w' c₁ hc₁ hwait
    obtain ⟨c₀, hc₀, -, -, ⟨-, hp'⟩ | ⟨-, hp'⟩⟩ := of_setPhase hc₁
    · simp [hwait] at hp'
    · have hwait' := hp'.symm.trans hwait
      refine (hd.alive w' c₀ hc₀ hwait').setPhase hc'.1 fun hmem => ?_
      rw [hp] at hmem
      rcases List.mem_cons.mp hmem with rfl | hmem
      · exact absurd hwait' (hc'.2 c₀ hc₀)
      · exact hmem
  · intro role hrole
    exact h.role_eq id c role hc (by simpa [hp, Phase.role] using hrole)

theorem Wired.step (h : Wired tr s) (hstep : s.step e = some s') :
    Wired (tr ++ [⟨s, e, s'⟩]) s' := by
  rcases step_cases hstep with ⟨query, rfl, rfl⟩ | ⟨id, c, p, hc, hadv, rfl⟩ |
    ⟨id, c, o, rfl, hc, hp, rfl⟩ | ⟨id, c, o, w, ws, rfl, hc, hp, rfl⟩
  · exact h.resolve query
  · exact h.advance hc hadv
  · exact (h.concat _).takeOut hc hp
  · exact (h.concat _).send hc hp

theorem wired_of_run (h : Run tr s) : Wired tr s :=
  h.invariant (I := Wired) wired_new fun _ _ _ _ _ hi hstep => hi.step hstep

/-! ### Every slot has its leader -/

theorem Leads.setPhase (h : s.Leads l key) (hl : l ≠ id ∨ p.holdsSlot = true) :
    (s.setPhase id p).Leads l key := by
  obtain ⟨c, hc, hkey, hholds⟩ := h
  by_cases hid : l = id
  · subst hid
    exact ⟨_, setPhase_self hc p, hkey, hl.resolve_left (fun hne => hne rfl)⟩
  · exact ⟨c, (setPhase_of_ne hid p).trans hc, hkey, hholds⟩

theorem Leads.resolve (h : s.Leads l key) (query : ResolveQuery) :
    (s.resolve query).Leads l key := by
  obtain ⟨c, hc, hkey, hholds⟩ := h
  exact ⟨c, callAt_resolve_of_some hc, hkey, hholds⟩

/-- Who arrives where there is no slot leads. -/
theorem leads_resolve (h : s.inflight.lookup query.key = none) :
    (s.resolve query).Leads s.calls.length query.key := by
  rw [resolve_leader h]
  exact ⟨⟨query, .leader, .created⟩, by simp [callAt], rfl, rfl⟩

/-- A leader goes on to hold its slot, unless it is dropped. -/
theorem Advance.keeps (h : Advance s id e p p') (hp : p.holdsSlot = true) :
    p'.holdsSlot = true ∨ e = .drop id := by
  cases h <;> simp_all [Phase.holdsSlot]

/-- Nobody is a leader in the eyes of a delivery. -/
theorem leads_deliver (s : SingleFlight) (w : ℕ) (o : Outcome) (l : ℕ) (key : Key) :
    (s.deliver w o).Leads l key ↔ s.Leads l key := by
  rcases deliver_cases s w o with ⟨c, hc, hp, heq⟩ | ⟨-, heq⟩
  · rw [heq]
    refine ⟨fun h => h.of_setPhase hc (by simp [Phase.holdsSlot]), fun h => h.setPhase (Or.inl ?_)⟩
    rintro rfl
    obtain ⟨c', hc', -, hholds⟩ := h
    obtain rfl : c' = c := Option.some.inj (hc'.symm.trans hc)
    simp [hp, Phase.holdsSlot] at hholds
  · rw [heq]

theorem inflight_deliver (s : SingleFlight) (w : ℕ) (o : Outcome) :
    (s.deliver w o).inflight = s.inflight := by
  rcases deliver_cases s w o with ⟨c, hc, hp, heq⟩ | ⟨-, heq⟩ <;> rw [heq]
  rfl

/-- A leader that sends on does not lead, before or after. -/
theorem leads_send {ws : List ℕ} (hc : s.callAt id = some c) (hp : c.phase = .sending o (w :: ws))
    (l : ℕ) (key : Key) :
    ((s.deliver w o.clone).setPhase id (.sending o ws)).Leads l key ↔ s.Leads l key := by
  rw [← leads_deliver s w o.clone]
  constructor
  · rintro ⟨c', hc', hkey, hholds⟩
    obtain ⟨c₀, hc₀, hquery, -, ⟨-, hp'⟩ | ⟨-, hp'⟩⟩ := of_setPhase hc'
    · simp [hp', Phase.holdsSlot] at hholds
    · exact ⟨c₀, hc₀, by rw [← hquery, hkey], hp' ▸ hholds⟩
  · intro h
    refine h.setPhase (Or.inl ?_)
    rintro rfl
    obtain ⟨c', hc', -, hholds⟩ := (leads_deliver s w o.clone l key).mp h
    obtain rfl : c' = c := Option.some.inj (hc'.symm.trans hc)
    simp [hp, Phase.holdsSlot] at hholds

/-- **Every slot has a leader.** -/
def Owned (s : SingleFlight) : Prop := ∀ key ∈ s.inflight, ∃ l, s.Leads l key

/-- No leader is dropped that has yet to take out its slot. -/
def Uncancelled (x : Step SingleFlight Event) : Prop :=
  ∀ id key, x.input = .drop id → ¬ x.pre.Leads id key

theorem Owned.step (h : Owned s) (hstep : s.step e = some s') (hx : Uncancelled ⟨s, e, s'⟩) :
    Owned s' := by
  intro key hkey
  rcases step_cases hstep with ⟨query, rfl, rfl⟩ | ⟨id, c, p, hc, hadv, rfl⟩ |
    ⟨id, c, o, rfl, hc, hp, rfl⟩ | ⟨id, c, o, w, ws, rfl, hc, hp, rfl⟩
  · cases hlook : s.inflight.lookup key with
    | some ws =>
      obtain ⟨l, hl⟩ := h key (HashMap.mem_iff_lookup.mpr ⟨ws, hlook⟩)
      exact ⟨l, hl.resolve query⟩
    | none =>
      -- a slot that was not there before belongs to the new call
      obtain ⟨ws, hws⟩ := HashMap.mem_iff_lookup.mp hkey
      rw [lookup_resolve] at hws
      split at hws
      · rename_i heq
        exact ⟨_, heq ▸ leads_resolve (heq ▸ hlook)⟩
      · simp [hlook] at hws
  · obtain ⟨l, hl⟩ := h key hkey
    refine ⟨l, hl.setPhase ?_⟩
    by_cases hid : l = id
    · subst hid
      have hl' := hl
      obtain ⟨c', hc', -, hholds⟩ := hl'
      obtain rfl : c' = c := Option.some.inj (hc'.symm.trans hc)
      -- a leader gives its slot up only by being dropped, which the run excludes
      rcases hadv.keeps hholds with hkeeps | hdrop
      · exact Or.inr hkeeps
      · exact absurd hl (hx l key hdrop)
    · exact Or.inl hid
  · obtain ⟨ws, hfound⟩ := HashMap.mem_iff_lookup.mp hkey
    obtain ⟨hne, hws⟩ := HashMap.lookup_erase_eq_some_iff.mp hfound
    obtain ⟨l, hl⟩ := h key (HashMap.mem_iff_lookup.mpr ⟨ws, hws⟩)
    have hid : l ≠ id := by
      rintro rfl
      obtain ⟨c', hc', hkey', -⟩ := hl
      obtain rfl : c' = c := Option.some.inj (hc'.symm.trans hc)
      exact hne hkey'.symm
    exact ⟨l, hl.setPhase (Or.inl hid)⟩
  · have hkey' : key ∈ (s.deliver w o.clone).inflight := hkey
    rw [inflight_deliver] at hkey'
    obtain ⟨l, hl⟩ := h key hkey'
    exact ⟨l, (leads_send hc hp l key).mpr hl⟩

theorem owned_of_run (h : Run tr s) (hkept : ∀ x ∈ tr, Uncancelled x) : Owned s :=
  h.invariant_where (I := fun _ s => Owned s) (C := Uncancelled) (by simp [Owned, new])
    (fun _ _ _ _ _ hi hstep hx => hi.step hstep hx) hkept

/-- A slot whose leader was dropped stays, without a leader, whatever happens: every later
call for the key joins it, and nobody will serve it. -/
theorem leaked_of_run (h : Transition.Run (Transition.ofFun step) s tr s')
    (hkey : key ∈ s.inflight) (hnone : ∀ l, ¬ s.Leads l key) :
    key ∈ s'.inflight ∧ ∀ l, ¬ s'.Leads l key := by
  refine h.invariant (I := fun _ s => key ∈ s.inflight ∧ ∀ l, ¬ s.Leads l key) ⟨hkey, hnone⟩ ?_
  rintro - m e m' - ⟨hkey, hnone⟩ hstep
  rcases step_cases hstep with ⟨query, rfl, rfl⟩ | ⟨id, c, p, hc, hadv, rfl⟩ |
    ⟨id, c, o, rfl, hc, hp, rfl⟩ | ⟨id, c, o, w, ws, rfl, hc, hp, rfl⟩
  · obtain ⟨ws, hws⟩ := HashMap.mem_iff_lookup.mp hkey
    constructor
    · rw [HashMap.mem_iff_lookup, lookup_resolve]
      split <;> simp [hws]
    · intro l hl
      rcases hl.of_resolve with hold | ⟨-, rfl, hlook⟩
      · exact hnone l hold
      · simp [hws] at hlook
  · exact ⟨hkey, fun l hl => hnone l (hl.of_setPhase hc hadv.holds)⟩
  · have hne : key ≠ c.query.key := by
      rintro rfl
      exact hnone id ⟨c, hc, rfl, by rw [hp]; rfl⟩
    obtain ⟨ws, hws⟩ := HashMap.mem_iff_lookup.mp hkey
    refine ⟨HashMap.mem_iff_lookup.mpr ⟨ws, ?_⟩, fun l hl => hnone l ?_⟩
    · rw [HashMap.lookup_erase_eq, if_neg hne, hws]
    · exact Leads.of_setPhase hc (by simp [Phase.holdsSlot]) hl
  · refine ⟨?_, fun l hl => hnone l ((leads_send hc hp l key).mp hl)⟩
    have hkey' : key ∈ (m.deliver w o.clone).inflight := by rwa [inflight_deliver]
    exact hkey'

/-- Polled on, with its inner resolver coming back with `o`, the call takes the slot of the
key out. -/
def TakesOut (s : SingleFlight) (id : ℕ) (key : Key) (o : Outcome) : Prop :=
  ∃ tr s', Transition.Run (Transition.ofFun step) s tr s' ∧
    (∀ x ∈ tr, x.input ∈ [.poll id, .innerDone id o, .removeSlot id]) ∧ key ∉ s'.inflight

/-- What takes the slot out after a step of the call takes it out. -/
theorem TakesOut.of_step (h : s'.TakesOut id key o) (hstep : s.step e = some s')
    (he : e ∈ [.poll id, .innerDone id o, .removeSlot id]) : s.TakesOut id key o := by
  obtain ⟨tr, s'', hrun, hinputs, hkey⟩ := h
  refine ⟨⟨s, e, s'⟩ :: tr, s'', Transition.run_cons.mpr ⟨rfl, hstep, hrun⟩, ?_, hkey⟩
  intro x hx
  rcases List.mem_cons.mp hx with rfl | hx
  · exact he
  · exact hinputs x hx

theorem takesOut_finished {o' : Outcome} (hc : s.callAt id = some c) (hp : c.phase = .finished o') :
    s.TakesOut id c.query.key o := by
  obtain ⟨query, role, phase⟩ := c
  obtain rfl : phase = .finished o' := hp
  refine ⟨[⟨s, .removeSlot id, s.takeOut id query.key o'⟩], _, Transition.run_cons.mpr
    ⟨rfl, ?_, Transition.Run.nil⟩, by simp, by simp [takeOut]⟩
  have hstep : s.step (.removeSlot id) = some (s.takeOut id query.key o') := by
    simp only [step, hc]
    rfl
  exact hstep

theorem takesOut_running (hc : s.callAt id = some c) (hp : c.phase = .running) (o : Outcome) :
    s.TakesOut id c.query.key o := by
  obtain ⟨query, role, phase⟩ := c
  obtain rfl : phase = .running := hp
  have hstep : s.step (.innerDone id o) = some (s.setPhase id (.finished o)) := by
    simp only [step, hc]
  exact (takesOut_finished (setPhase_self hc _) rfl).of_step hstep (by simp)

/-- **A leader can always go on to take out its slot.** -/
theorem Leads.takesOut (h : s.Leads id key) (o : Outcome) : s.TakesOut id key o := by
  obtain ⟨c, hc, rfl, hholds⟩ := h
  cases hp : c.phase with
  | created =>
    have hstep : s.step (.poll id) = some (s.setPhase id .running) := by
      simp [step, hc, hp, polled]
    exact (takesOut_running (setPhase_self hc _) rfl o).of_step hstep (by simp)
  | running => exact takesOut_running hc hp o
  | finished o' => exact takesOut_finished hc hp
  | sending _ _ | waiting _ | returned _ | dropped => simp [hp, Phase.holdsSlot] at hholds

/-! ### What followers are told -/

/-- A leader takes out a slot in which somebody waits only with an outcome that its clone is equal
to: not with an error that carries its source. -/
def Plain (x : Step SingleFlight Event) : Prop :=
  ∀ id c o w, x.input = .removeSlot id → x.pre.callAt id = some c → c.phase = .finished o →
    w ∈ (x.pre.inflight.lookup c.query.key).getD [] → o.clone = o

/-- So it is where every outcome of the inner resolver is equal to its clone. -/
theorem plain_of_run (h : Run tr s)
    (hclone : ∀ y ∈ tr, ∀ id o, y.input = .innerDone id o → o.clone = o) : ∀ x ∈ tr, Plain x := by
  intro x hx id c o w _ hc hp _
  obtain ⟨before, after, rfl, hbefore, -, -⟩ := h.of_mem hx
  obtain ⟨y, hy, hinput⟩ := (wired_of_run hbefore).inHand id c o hc (by rw [hp]; rfl)
  exact hclone y (List.mem_append_left _ hy) id o hinput

/-- The follower is told what the leader it joined obtained. -/
def ToldSame (tr : List (Step SingleFlight Event)) (w : ℕ) (o : Outcome) : Prop :=
  ∃ l, Joined tr w l ∧ Obtained tr l o

theorem ToldSame.concat (h : ToldSame tr w o) (x : Step SingleFlight Event) :
    ToldSame (tr ++ [x]) w o := by
  obtain ⟨l, hjoined, hobtained⟩ := h
  exact ⟨l, hjoined.concat x, hobtained.concat x⟩

/-- **Nothing is lost in cloning.** -/
structure Faithful (tr : List (Step SingleFlight Event)) (s : SingleFlight) : Prop where
  /-- What is still to be sent is equal to its clone. -/
  sending : ∀ l c o ws, s.callAt l = some c → c.phase = .sending o ws → ws ≠ [] → o.clone = o
  /-- What is in a follower's channel, or was taken out of it, is what its leader obtained. -/
  told : ∀ w c o, s.callAt w = some c →
    c.phase = .waiting (some o) ∨ c.role = .follower ∧ c.phase = .returned o → ToldSame tr w o

theorem faithful_new : Faithful [] new := by
  constructor <;> simp [new, callAt]

theorem Advance.ne_sending {ws : List ℕ} (h : Advance s id e p p') : p' ≠ .sending o ws := by
  cases h <;> simp

theorem Faithful.advance (h : Faithful tr s) (hw : Wired tr s) (hc : s.callAt id = some c)
    (hadv : Advance s id e c.phase p) : Faithful tr (s.setPhase id p) where
  sending l c' o ws hc' hp hws := by
    obtain ⟨c₀, hc₀, -, -, ⟨-, hp'⟩ | ⟨-, hp'⟩⟩ := of_setPhase hc'
    · exact absurd (hp'.symm.trans hp) hadv.ne_sending
    · exact h.sending l c₀ o ws hc₀ (hp'.symm.trans hp) hws
  told w c' o hc' hout := by
    obtain ⟨c₀, hc₀, -, hr, ⟨rfl, hp'⟩ | ⟨-, hp'⟩⟩ := of_setPhase hc'
    · obtain rfl : c₀ = c := Option.some.inj (hc₀.symm.trans hc)
      rw [hp', hr] at hout
      rcases hout with hp | ⟨hrole, hp⟩
      · exact absurd hp hadv.ne_waiting_some
      · rcases hadv.returned hp with hsome | hleader | ⟨hnone, hgone⟩
        · exact h.told w c₀ o hc (Or.inl hsome)
        · have hleads := hw.role_eq w c₀ _ hc hleader
          simp [hrole] at hleads
        · exact absurd (hw.alive w c₀ hc hnone) hgone
    · exact h.told w c₀ o hc₀ (by rwa [hp', hr] at hout)

theorem Faithful.resolve (h : Faithful tr s) (query : ResolveQuery) :
    Faithful tr (s.resolve query) where
  sending l c o ws hc hp hws := by
    rcases callAt_resolve hc with hold | ⟨-, -, ⟨-, -, hp'⟩ | ⟨-, -, hp'⟩⟩
    · exact h.sending l c o ws hold hp hws
    · simp [hp] at hp'
    · simp [hp] at hp'
  told w c o hc hout := by
    rcases callAt_resolve hc with hold | ⟨-, -, ⟨-, hr, hp⟩ | ⟨-, -, hp⟩⟩
    · exact h.told w c o hold hout
    · simp [hr, hp] at hout
    · simp [hp] at hout

theorem Faithful.takeOut (h : Faithful tr s)
    (hplain : ∀ w, w ∈ (s.inflight.lookup key).getD [] → o.clone = o) :
    Faithful tr (s.takeOut id key o) where
  sending l c' o' ws hc' hp hws := by
    rw [callAt_takeOut] at hc'
    obtain ⟨c₀, hc₀, -, -, ⟨-, hp'⟩ | ⟨-, hp'⟩⟩ := of_setPhase hc'
    · obtain ⟨rfl, rfl⟩ := Phase.sending.inj (hp'.symm.trans hp)
      obtain ⟨w, hw⟩ := List.exists_mem_of_ne_nil _ hws
      exact hplain w hw
    · exact h.sending l c₀ o' ws hc₀ (hp'.symm.trans hp) hws
  told w c' o' hc' hout := by
    rw [callAt_takeOut] at hc'
    obtain ⟨c₀, hc₀, -, hr, ⟨-, hp'⟩ | ⟨-, hp'⟩⟩ := of_setPhase hc'
    · simp [hp'] at hout
    · exact h.told w c₀ o' hc₀ (by rwa [hp', hr] at hout)

/-- The calls after a delivery, in terms of those before. -/
theorem of_deliver (h : (s.deliver w o).callAt l = some c') :
    ∃ c, s.callAt l = some c ∧ c'.role = c.role ∧
      (c'.phase = c.phase ∨ l = w ∧ c'.phase = .waiting (some o)) := by
  rcases deliver_cases s w o with ⟨c, hc, hp, heq⟩ | ⟨-, heq⟩
  · rw [heq] at h
    obtain ⟨c₀, hc₀, -, hr, ⟨rfl, hp'⟩ | ⟨-, hp'⟩⟩ := of_setPhase h
    · exact ⟨c₀, hc₀, hr, Or.inr ⟨rfl, hp'⟩⟩
    · exact ⟨c₀, hc₀, hr, Or.inl hp'⟩
  · rw [heq] at h
    exact ⟨c', h, rfl, Or.inl rfl⟩

theorem Faithful.send {ws : List ℕ} (h : Faithful tr s) (hw : Wired tr s)
    (hc : s.callAt id = some c) (hp : c.phase = .sending o (w :: ws)) :
    Faithful tr ((s.deliver w o.clone).setPhase id (.sending o ws)) := by
  have hclone : o.clone = o := h.sending id c o (w :: ws) hc hp (List.cons_ne_nil _ _)
  constructor
  case sending =>
    intro l c' o' ws' hc' hp' hws
    obtain ⟨c₁, hc₁, -, -, ⟨-, hsent⟩ | ⟨-, hsame⟩⟩ := of_setPhase hc'
    · obtain ⟨rfl, -⟩ := Phase.sending.inj (hsent.symm.trans hp')
      exact hclone
    · obtain ⟨c₀, hc₀, -, hkept | ⟨-, hwait⟩⟩ := of_deliver hc₁
      · exact h.sending l c₀ o' ws' hc₀ (hkept.symm.trans (hsame.symm.trans hp')) hws
      · rw [hsame, hwait] at hp'
        cases hp'
  case told =>
    intro w' c' o' hc' hout
    obtain ⟨c₁, hc₁, -, hr, ⟨-, hsent⟩ | ⟨-, hsame⟩⟩ := of_setPhase hc'
    · simp [hsent] at hout
    · obtain ⟨c₀, hc₀, hr₀, hkept | ⟨rfl, hwait⟩⟩ := of_deliver hc₁
      · exact h.told w' c₀ o' hc₀ (by rwa [hsame, hr, hkept, hr₀] at hout)
      · -- this is the follower that was just served
        obtain rfl : o = o' := by simpa [hsame, hwait, hclone] using hout
        exact ⟨id, hw.serving id c hc w' (by simp [hp, Phase.toServe]),
          hw.inHand id c o hc (by rw [hp]; rfl)⟩

theorem Faithful.step (h : Faithful tr s) (hw : Wired tr s) (hstep : s.step e = some s')
    (hplain : Plain ⟨s, e, s'⟩) : Faithful tr s' := by
  rcases step_cases hstep with ⟨query, rfl, rfl⟩ | ⟨id, c, p, hc, hadv, rfl⟩ |
    ⟨id, c, o, rfl, hc, hp, rfl⟩ | ⟨id, c, o, w, ws, rfl, hc, hp, rfl⟩
  · exact h.resolve query
  · exact h.advance hw hc hadv
  · exact h.takeOut fun w hwaits => hplain id c o w rfl hc hp hwaits
  · exact h.send hw hc hp

theorem faithful_of_run (h : Run tr s) (hplain : ∀ x ∈ tr, Plain x) : Faithful tr s := by
  refine h.invariant_where (I := Faithful) faithful_new ?_ hplain
  rintro tr s e s' hrun hi hstep hx
  have hnext : Faithful tr s' := hi.step (wired_of_run hrun) hstep hx
  exact ⟨hnext.sending, fun w c o hc hout => (hnext.told w c o hc hout).concat _⟩

/-! ### Every state of a run -/

/-- **What is to hold in every state**, with the events that led to it. -/
structure Sound (tr : List (Step SingleFlight Event)) (s : SingleFlight) : Prop where
  /-- No key has two inner resolutions in flight. -/
  inner_unique : ∀ id id' c c', s.callAt id = some c → s.callAt id' = some c' →
    c.phase = .running → c'.phase = .running → c.query.key = c'.query.key → id = id'
  /-- Every slot has a live leader, which goes on to take it out. -/
  owned : ∀ key ∈ s.inflight, ∃ l, s.Leads l key ∧ ∀ o, s.TakesOut l key o
  /-- A follower comes back with what the leader it joined obtained, or as cancelled if that
  leader was dropped. -/
  outcome : ∀ w c o, s.callAt w = some c → c.role = .follower → c.phase = .returned o →
    ∃ l, Joined tr w l ∧
      (Obtained tr l o ∨ o = .error .cancelled ∧ ∃ x ∈ tr, x.input = .drop l)
  /-- A follower that has nothing yet is still to be served by the leader it joined. -/
  served : ∀ w c, s.callAt w = some c → c.phase = .waiting none → ∃ l, Joined tr w l ∧
    ((∃ key, s.Leads l key) ∨ ∃ c', s.callAt l = some c' ∧ w ∈ c'.phase.toServe)
  /-- Where a key has no leader, the next call for it leads. -/
  next_leads : ∀ query, (∀ l, ¬ s.Leads l query.key) →
    (s.resolve query).Leads s.calls.length query.key

/-- Every state the run passes through is as it is to be. -/
def AlwaysSound (tr : List (Step SingleFlight Event)) : Prop :=
  ∀ before x after, tr = before ++ x :: after → Sound (before ++ [x]) x.post

theorem sound_of_run (h : Run tr s) (hkept : ∀ x ∈ tr, Uncancelled x) (hplain : ∀ x ∈ tr, Plain x) :
    Sound tr s := by
  have hw := wired_of_run h
  have howned := owned_of_run h hkept
  constructor
  case inner_unique =>
    intro id id' c c' hc hc' hp hp' hkey
    exact hw.unique id id' c.query.key ⟨c, hc, rfl, by rw [hp]; rfl⟩
      ⟨c', hc', hkey.symm, by rw [hp']; rfl⟩
  case owned =>
    intro key hkey
    obtain ⟨l, hl⟩ := howned key hkey
    exact ⟨l, hl, hl.takesOut⟩
  case outcome =>
    intro w c o hc hrole hp
    obtain ⟨l, hjoined, hobtained⟩ :=
      (faithful_of_run h hplain).told w c o hc (Or.inr ⟨hrole, hp⟩)
    exact ⟨l, hjoined, Or.inl hobtained⟩
  case served =>
    intro w c hc hp
    -- its sending end is in a slot, which has a leader, or in the hands of one
    rcases senderAlive_iff.mp (hw.alive w c hc hp) with ⟨key, ws, hws, hmem⟩ | ⟨l, c', hc', hmem⟩
    · obtain ⟨l, hl⟩ := howned key (HashMap.mem_iff_lookup.mpr ⟨ws, hws⟩)
      exact ⟨l, hw.slot key ws hws w hmem l hl, Or.inl ⟨key, hl⟩⟩
    · exact ⟨l, hw.serving l c' hc' w hmem, Or.inr ⟨c', hc', hmem⟩⟩
  case next_leads =>
    intro query hnone
    refine leads_resolve ?_
    cases hlook : s.inflight.lookup query.key with
    | none => rfl
    | some ws =>
      obtain ⟨l, hl⟩ := howned query.key (HashMap.mem_iff_lookup.mpr ⟨ws, hlook⟩)
      exact absurd hl (hnone l)

/-- A drop is all that happens to the call that is dropped. -/
theorem step_drop (hstep : s.step (.drop id) = some s') :
    ∃ c, s.callAt id = some c ∧ s' = s.setPhase id .dropped := by
  rcases step_cases hstep with ⟨_, h, -⟩ | ⟨id', c, p, hc, hadv, rfl⟩ | ⟨_, _, _, h, -⟩ |
    ⟨_, _, _, _, _, h, -⟩
  · simp at h
  · obtain ⟨rfl, rfl⟩ : id' = id ∧ p = .dropped := by
      generalize c.phase = q at hadv
      cases hadv <;> exact ⟨rfl, rfl⟩
    exact ⟨c, hc, rfl⟩
  · simp at h
  · simp at h

/-- The slot of a leader that was dropped is there and has no leader. -/
theorem not_owned_of_drop (hw : Wired tr s) (hlead : s.Leads id key)
    (hstep : s.step (.drop id) = some s') : key ∈ s'.inflight ∧ ∀ l, ¬ s'.Leads l key := by
  obtain ⟨c, hc, rfl⟩ := step_drop hstep
  refine ⟨hw.mem_inflight id key hlead, fun l hl => ?_⟩
  obtain rfl := hw.unique l id key (hl.of_setPhase hc (by simp [Phase.holdsSlot])) hlead
  obtain ⟨c', hc', -, hholds⟩ := hl
  obtain rfl := Option.some.inj ((setPhase_self hc _).symm.trans hc')
  simp [Phase.holdsSlot] at hholds

/-- **When slots live.** If no leader is dropped before it took out its slot, and none has an
error with its source to be cloned for who waits, every state of the run is as it is to be; and a
run in which a leader is so dropped has a state that is not. -/
theorem alwaysSound_of_kept (h : Run tr s) :
    ((∀ x ∈ tr, Uncancelled x ∧ Plain x) → AlwaysSound tr) ∧
      (AlwaysSound tr → ∀ x ∈ tr, Uncancelled x) := by
  constructor
  · rintro hkept before x after rfl
    obtain ⟨hrun, hstep, -⟩ := h.cut
    have hpast : ∀ y ∈ before ++ [x], Uncancelled y ∧ Plain y := fun y hy =>
      hkept y (by rcases List.mem_append.mp hy with hy | hy <;> simp_all)
    exact sound_of_run (hrun.snoc hstep) (fun y hy => (hpast y hy).1) fun y hy => (hpast y hy).2
  · rintro hsound x hx id key hinput hlead
    obtain ⟨before, after, htr, hrun, hstep, -⟩ := h.of_mem hx
    have hstep : x.pre.step x.input = some x.post := hstep
    rw [hinput] at hstep
    obtain ⟨hkey, hnone⟩ := not_owned_of_drop (wired_of_run hrun) hlead hstep
    obtain ⟨l, hl, -⟩ := (hsound before x after htr).owned key hkey
    exact hnone l hl

/-- A query of one partition. -/
def sampleQuery : ResolveQuery :=
  ⟨⟨Vector.replicate 32 0⟩, "example.com".toList, .a, .standard⟩

/-- Two calls share one resolution. -/
theorem alwaysSound_of_kept_shared :
    ∃ tr s, Run tr s ∧ tr.map Step.input = [.resolve sampleQuery, .resolve sampleQuery, .poll 0,
      .innerDone 0 (.error .resolveNxDomain), .removeSlot 0, .send 0, .send 0, .poll 1] ∧
      AlwaysSound tr := by
  have hexec : (Transition.exec step new [.resolve sampleQuery, .resolve sampleQuery, .poll 0,
      .innerDone 0 (.error .resolveNxDomain), .removeSlot 0, .send 0, .send 0,
      .poll 1]).isSome = true := by decide
  obtain ⟨tr, s, hrun, hinputs⟩ := Transition.exists_run hexec
  refine ⟨tr, s, hrun, hinputs, (alwaysSound_of_kept hrun).1 fun x hx => ?_⟩
  have hmem : x.input ∈ tr.map Step.input := List.mem_map_of_mem hx
  rw [hinputs] at hmem
  constructor
  · intro id key hinput
    simp [hinput] at hmem
  · refine plain_of_run hrun (fun y hy id o hinput => ?_) x hx
    have hmem : y.input ∈ tr.map Step.input := List.mem_map_of_mem hy
    rw [hinputs] at hmem
    obtain ⟨rfl, rfl⟩ : id = 0 ∧ o = .error .resolveNxDomain := by simpa [hinput] using hmem
    rfl

/-- **A slot that is left behind**: two calls share a resolution and the leader is dropped
before its first poll. The slot stays, and the follower waits in it for nobody. -/
theorem not_sound_dropped :
    ∃ tr s, Run tr s ∧
      tr.map Step.input = [.resolve sampleQuery, .resolve sampleQuery, .drop 0] ∧
      sampleQuery.key ∈ s.inflight ∧ (∀ l, ¬ s.Leads l sampleQuery.key) ∧
      s.callAt 1 = some ⟨sampleQuery, .follower, .waiting none⟩ ∧ ¬ Sound tr s := by
  have hexec : (Transition.exec step new [.resolve sampleQuery, .resolve sampleQuery,
      .drop 0]).any (fun p => decide (sampleQuery.key ∈ p.2.inflight ∧
        (∀ c ∈ p.2.calls, c.phase.holdsSlot = false) ∧
        p.2.callAt 1 = some ⟨sampleQuery, .follower, .waiting none⟩)) = true := by decide
  obtain ⟨tr, s, hrun, hinputs, htest⟩ := Transition.exists_run_where hexec
  obtain ⟨hkey, hphases, hcall⟩ := of_decide_eq_true htest
  have hnone : ∀ l, ¬ s.Leads l sampleQuery.key := by
    rintro l ⟨c, hc, -, hholds⟩
    simp [hphases c (List.mem_of_getElem? hc)] at hholds
  refine ⟨tr, s, hrun, hinputs, hkey, hnone, hcall, fun hsound => ?_⟩
  obtain ⟨l, hl, -⟩ := hsound.owned _ hkey
  exact hnone l hl

end SingleFlight

end Dns

end DevBrowse
