import DevBrowse.Dns.SlotLiveness

/-!
# What shared calls are told

Futures may be dropped anywhere here, leaders included. Then a slot may be left behind, but
nobody is told anything wrong and nobody is forgotten
(`DevBrowse.Dns.SingleFlight.answers_shared`): no key ever has two inner resolutions in flight,
a call comes back with what its own inner resolution came to or with the clone of what the
leader it joined obtained for the same key, and by the time a leader has returned all those who
joined it have been told, unless they were dropped. Nobody who joined a leader ever comes back
with an error of his own.
-/

namespace DevBrowse

namespace Dns

open Transition (Step)

/-- The call has yet to hear from its inner resolver. -/
def Phase.early : Phase → Bool
  | .created | .running => true
  | _ => false

theorem Phase.role_of_holdsSlot {p : Phase} (h : p.holdsSlot = true) : p.role = some .leader := by
  cases p with
  | created | running | finished => rfl
  | sending | waiting | returned | dropped => cases h

namespace SingleFlight

variable {s s' : SingleFlight} {e : Event} {id l w : ℕ} {key : Key} {c : Call} {p p' : Phase}
  {o o' : Outcome} {query : ResolveQuery} {tr tr' : List (Step SingleFlight Event)}
  {x : Step SingleFlight Event}

/-- The future of the call was dropped. -/
def Dropped (s : SingleFlight) (id : ℕ) : Prop :=
  ∃ c, s.callAt id = some c ∧ c.phase = .dropped

/-- **Who is told what**, whatever is dropped. -/
structure Told (tr : List (Step SingleFlight Event)) (s : SingleFlight) : Prop where
  /-- Who joined a leader is a follower that asks for the same. -/
  joined : ∀ w l, Joined tr w l → ∃ c c', s.callAt w = some c ∧ s.callAt l = some c' ∧
    c.role = .follower ∧ c'.role = .leader ∧ c'.query.key = c.query.key
  /-- Nobody joined two leaders. -/
  joined_unique : ∀ w l l', Joined tr w l → Joined tr w l' → l = l'
  /-- The leader of who waits in a slot has yet to take it out, or was dropped. -/
  slot : ∀ key ws, s.inflight.lookup key = some ws → ∀ w ∈ ws, w < s.calls.length ∧
    ∀ l, Joined tr w l → s.Leads l key ∨ s.Dropped l
  /-- A call whose inner resolver came back is past that. -/
  obtained : ∀ l o, Obtained tr l o → ∃ c, s.callAt l = some c ∧ c.phase.early = false
  /-- An inner resolver comes back once. -/
  obtained_unique : ∀ l o o', Obtained tr l o → Obtained tr l o' → o = o'
  /-- A leader comes back with what it obtained. -/
  returned : ∀ l c o, s.callAt l = some c → c.role = .leader → c.phase = .returned o →
    Obtained tr l o

theorem told_new : Told [] new := by
  constructor <;> simp [new, callAt, Joined, Obtained]

/-! ### One step more -/

theorem joined_concat_iff : Joined (tr ++ [x]) w l ↔ Joined tr w l ∨
    ∃ query, x.input = .resolve query ∧ x.pre.calls.length = w ∧ x.pre.Leads l query.key := by
  constructor
  · rintro ⟨y, hy, query, hjoined⟩
    rcases List.mem_append.mp hy with hy | hy
    · exact .inl ⟨y, hy, query, hjoined⟩
    · obtain rfl := List.mem_singleton.mp hy
      exact .inr ⟨query, hjoined⟩
  · rintro (h | ⟨query, hjoined⟩)
    · exact h.concat x
    · exact ⟨x, List.mem_concat_self, query, hjoined⟩

theorem obtained_concat_iff :
    Obtained (tr ++ [x]) l o ↔ Obtained tr l o ∨ x.input = .innerDone l o := by
  constructor
  · rintro ⟨y, hy, hinput⟩
    rcases List.mem_append.mp hy with hy | hy
    · exact .inl ⟨y, hy, hinput⟩
    · obtain rfl := List.mem_singleton.mp hy
      exact .inr hinput
  · rintro (h | hinput)
    · exact h.concat x
    · exact ⟨x, List.mem_concat_self, hinput⟩

/-- A step that is neither an arrival nor an inner resolver that comes back. -/
theorem Told.concat (h : Told tr s) (hresolve : ∀ query, x.input ≠ .resolve query)
    (hinner : ∀ l o, x.input ≠ .innerDone l o) : Told (tr ++ [x]) s := by
  have hjoined : ∀ {w l}, Joined (tr ++ [x]) w l → Joined tr w l := fun hj =>
    (joined_concat_iff.mp hj).resolve_right fun ⟨query, hinput, _⟩ => hresolve query hinput
  have hobtained : ∀ {l o}, Obtained (tr ++ [x]) l o → Obtained tr l o := fun ho =>
    (obtained_concat_iff.mp ho).resolve_right (hinner _ _)
  constructor
  case joined => exact fun w l hj => h.joined w l (hjoined hj)
  case joined_unique => exact fun w l l' hj hj' => h.joined_unique w l l' (hjoined hj) (hjoined hj')
  case slot =>
    intro key ws hlook w hw
    obtain ⟨hlt, hslot⟩ := h.slot key ws hlook w hw
    exact ⟨hlt, fun l hj => hslot l (hjoined hj)⟩
  case obtained => exact fun l o ho => h.obtained l o (hobtained ho)
  case obtained_unique =>
    exact fun l o o' ho ho' => h.obtained_unique l o o' (hobtained ho) (hobtained ho')
  case returned => exact fun l c o hc hrole hp => (h.returned l c o hc hrole hp).concat x

/-- A call after one of the calls was moved on. -/
theorem exists_setPhase (h : s.callAt w = some c) (id : ℕ) (p : Phase) :
    ∃ c', (s.setPhase id p).callAt w = some c' ∧ c'.query = c.query ∧ c'.role = c.role ∧
      (w = id ∧ c'.phase = p ∨ w ≠ id ∧ c'.phase = c.phase) := by
  by_cases hw : w = id
  · subst hw
    exact ⟨_, setPhase_self h p, rfl, rfl, .inl ⟨rfl, rfl⟩⟩
  · exact ⟨c, (setPhase_of_ne hw p).trans h, rfl, rfl, .inr ⟨hw, rfl⟩⟩

theorem length_setPhase (s : SingleFlight) (id : ℕ) (p : Phase) :
    (s.setPhase id p).calls.length = s.calls.length := List.length_modify _ _ _

/-- **Moving one call on.** -/
theorem Told.setPhase (h : Told tr s) (hc : s.callAt id = some c)
    (hjoined : ∀ w l, Joined tr' w l → Joined tr w l)
    (hobtained : ∀ l o, Obtained tr' l o →
      Obtained tr l o ∨ l = id ∧ c.phase = .running ∧ p = .finished o)
    (hmono : ∀ l o, Obtained tr l o → Obtained tr' l o)
    (hlive : c.phase ≠ .dropped)
    (hkeeps : ∀ key ws, s.inflight.lookup key = some ws → s.Leads id key →
      p.holdsSlot = true ∨ p = .dropped)
    (hearly : c.phase.early = false → p.early = false)
    (hreturned : ∀ o, c.role = .leader → p = .returned o → Obtained tr' id o) :
    Told tr' (s.setPhase id p) := by
  constructor
  case joined =>
    intro w l hj
    obtain ⟨cw, cl, hcw, hcl, hfollows, hleads, hkey⟩ := h.joined w l (hjoined w l hj)
    obtain ⟨cw', hcw', hqw, hrw, -⟩ := exists_setPhase hcw id p
    obtain ⟨cl', hcl', hql, hrl, -⟩ := exists_setPhase hcl id p
    exact ⟨cw', cl', hcw', hcl', hrw.trans hfollows, hrl.trans hleads, by rw [hql, hqw, hkey]⟩
  case joined_unique =>
    exact fun w l l' hj hj' => h.joined_unique w l l' (hjoined w l hj) (hjoined w l' hj')
  case slot =>
    intro key ws hlook w hw
    obtain ⟨hlt, hslot⟩ := h.slot key ws hlook w hw
    refine ⟨by rwa [length_setPhase], fun l hj => ?_⟩
    by_cases hl : l = id
    · subst hl
      rcases hslot l (hjoined w l hj) with hlead | ⟨cl, hcl, hp⟩
      · rcases hkeeps key ws hlook hlead with hholds | hdropped
        · exact .inl (hlead.setPhase (.inr hholds))
        · exact .inr ⟨_, setPhase_self hc p, hdropped⟩
      · obtain rfl := Option.some.inj (hc.symm.trans hcl)
        exact absurd hp hlive
    · rcases hslot l (hjoined w l hj) with hlead | ⟨cl, hcl, hp⟩
      · exact .inl (hlead.setPhase (.inl hl))
      · exact .inr ⟨cl, (setPhase_of_ne hl p).trans hcl, hp⟩
  case obtained =>
    intro l o ho
    rcases hobtained l o ho with hold | ⟨rfl, -, rfl⟩
    · obtain ⟨cl, hcl, hpast⟩ := h.obtained l o hold
      obtain ⟨cl', hcl', -, -, ⟨rfl, hp⟩ | ⟨-, hp⟩⟩ := exists_setPhase hcl id p
      · obtain rfl := Option.some.inj (hc.symm.trans hcl)
        exact ⟨cl', hcl', by rw [hp, hearly hpast]⟩
      · exact ⟨cl', hcl', by rw [hp, hpast]⟩
    · exact ⟨_, setPhase_self hc _, rfl⟩
  case obtained_unique =>
    -- an inner resolver that has come back is not in flight
    have hnot : ∀ o, Obtained tr id o → c.phase ≠ .running := by
      intro o ho hrunning
      obtain ⟨cl, hcl, hpast⟩ := h.obtained id o ho
      obtain rfl := Option.some.inj (hc.symm.trans hcl)
      rw [hrunning] at hpast
      cases hpast
    intro l o o' ho ho'
    rcases hobtained l o ho with hold | ⟨rfl, hrunning, hp⟩
    · rcases hobtained l o' ho' with hold' | ⟨rfl, hrunning, -⟩
      · exact h.obtained_unique l o o' hold hold'
      · exact absurd hrunning (hnot o hold)
    · rcases hobtained l o' ho' with hold' | ⟨-, -, hp'⟩
      · exact absurd hrunning (hnot o' hold')
      · exact Phase.finished.inj (hp.symm.trans hp')
  case returned =>
    intro l cl o hcl hrole hp
    obtain ⟨c₀, hc₀, -, hr, ⟨rfl, hp'⟩ | ⟨-, hp'⟩⟩ := of_setPhase hcl
    · obtain rfl := Option.some.inj (hc.symm.trans hc₀)
      exact hreturned o (hr.symm.trans hrole) (hp'.symm.trans hp)
    · exact hmono l o (h.returned l c₀ o hc₀ (hr.symm.trans hrole) (hp'.symm.trans hp))

theorem Advance.ne_resolve (h : Advance s id e p p') : e ≠ .resolve query := by
  cases h <;> nofun

theorem Advance.ne_dropped (h : Advance s id e p p') : p ≠ .dropped := by
  cases h with
  | abandon h =>
    rintro rfl
    cases h
  | _ => nofun

theorem Advance.inner_cases (h : Advance s id e p p') (he : e = .innerDone l o) :
    l = id ∧ p = .running ∧ p' = .finished o := by
  cases h with
  | inner o' =>
    obtain ⟨rfl, rfl⟩ := Event.innerDone.inj he
    exact ⟨rfl, rfl, rfl⟩
  | _ => cases he

/-- A leader that is moved on keeps its slot, or is dropped. -/
theorem Advance.keeps_or_dropped (h : Advance s id e p p') (hp : p.holdsSlot = true) :
    p'.holdsSlot = true ∨ p' = .dropped := by
  cases h with
  | start | idle | inner => exact .inl rfl
  | abandon | leave => exact .inr rfl
  | pending | receive | cancel | finish => cases hp

theorem Advance.early (h : Advance s id e p p') (hp : p.early = false) : p'.early = false := by
  cases h with
  | start | idle | inner => cases hp
  | abandon | leave | pending | receive | cancel | finish => rfl

theorem Advance.returned_leader (h : Advance s id e p p') (hp' : p' = .returned o) :
    p.inHand = some o ∨ p.role = some .follower := by
  cases h with
  | finish o' =>
    obtain rfl := Phase.returned.inj hp'
    exact .inl rfl
  | receive | cancel => exact .inr rfl
  | _ => cases hp'

theorem Told.advance (h : Told tr s) (hw : Wired tr s) (hc : s.callAt id = some c)
    (hadv : Advance s id e c.phase p) :
    Told (tr ++ [⟨s, e, s.setPhase id p⟩]) (s.setPhase id p) := by
  refine h.setPhase hc (fun w l hj => ?_) (fun l o ho => ?_) (fun l o ho => ho.concat _)
    hadv.ne_dropped (fun key ws _ hlead => ?_) hadv.early fun o hrole hp => ?_
  · exact (joined_concat_iff.mp hj).resolve_right fun ⟨query, hinput, _⟩ => hadv.ne_resolve hinput
  · exact (obtained_concat_iff.mp ho).imp_right fun hinput => hadv.inner_cases hinput
  · obtain ⟨c', hc', -, hholds⟩ := hlead
    obtain rfl := Option.some.inj (hc.symm.trans hc')
    exact hadv.keeps_or_dropped hholds
  · refine Obtained.concat ?_ _
    rcases hadv.returned_leader hp with hhand | hfollower
    · exact hw.inHand id c o hc hhand
    · have hrole' := hw.role_eq id c _ hc hfollower
      rw [hrole] at hrole'
      cases hrole'

/-! ### A call arrives -/

theorem length_resolve (s : SingleFlight) (query : ResolveQuery) :
    (s.resolve query).calls.length = s.calls.length + 1 := by
  cases hlook : s.inflight.lookup query.key with
  | none => rw [resolve_leader hlook, List.length_append, List.length_singleton]
  | some ws => rw [resolve_follower hlook, List.length_append, List.length_singleton]

/-- Who arrives where there is a slot follows. -/
theorem callAt_resolve_follower {ws : List ℕ} (h : s.inflight.lookup query.key = some ws) :
    (s.resolve query).callAt s.calls.length = some ⟨query, .follower, .waiting none⟩ := by
  rw [resolve_follower h, callAt, List.getElem?_append_right (Nat.le_refl _), Nat.sub_self]
  rfl

theorem Told.joined_lt (h : Told tr s) (hj : Joined tr w l) : w < s.calls.length := by
  obtain ⟨cw, -, hcw, -⟩ := h.joined w l hj
  exact (List.getElem?_eq_some_iff.mp hcw).1

theorem Told.resolve (h : Told tr s) (hw : Wired tr s) (query : ResolveQuery) :
    Told (tr ++ [⟨s, .resolve query, s.resolve query⟩]) (s.resolve query) := by
  have hjoined : ∀ {w l}, Joined (tr ++ [⟨s, .resolve query, s.resolve query⟩]) w l →
      Joined tr w l ∨ s.calls.length = w ∧ s.Leads l query.key := by
    intro w l hj
    rcases joined_concat_iff.mp hj with hold | ⟨query', hinput, hlen, hlead⟩
    · exact .inl hold
    · obtain rfl := Event.resolve.inj hinput
      exact .inr ⟨hlen, hlead⟩
  have hobtained : ∀ {l o}, Obtained (tr ++ [⟨s, .resolve query, s.resolve query⟩]) l o →
      Obtained tr l o := fun ho => (obtained_concat_iff.mp ho).resolve_right nofun
  constructor
  case joined =>
    intro w l hj
    rcases hjoined hj with hold | ⟨rfl, cl, hcl, hkey, hholds⟩
    · obtain ⟨cw, cl, hcw, hcl, hroles⟩ := h.joined w l hold
      exact ⟨cw, cl, callAt_resolve_of_some hcw, callAt_resolve_of_some hcl, hroles⟩
    · obtain ⟨ws, hws⟩ := HashMap.mem_iff_lookup.mp
        (hw.mem_inflight l query.key ⟨cl, hcl, hkey, hholds⟩)
      exact ⟨_, cl, callAt_resolve_follower hws, callAt_resolve_of_some hcl, rfl,
        hw.role_eq l cl _ hcl (Phase.role_of_holdsSlot hholds), hkey⟩
  case joined_unique =>
    intro w l l' hj hj'
    rcases hjoined hj with hold | ⟨hlen, hlead⟩
    · rcases hjoined hj' with hold' | ⟨hlen, -⟩
      · exact h.joined_unique w l l' hold hold'
      · exact absurd (h.joined_lt hold) (by omega)
    · rcases hjoined hj' with hold' | ⟨-, hlead'⟩
      · exact absurd (h.joined_lt hold') (by omega)
      · exact hw.unique l l' query.key hlead hlead'
  case slot =>
    -- who waited before waits for the same leader
    have hold : ∀ key ws, s.inflight.lookup key = some ws → ∀ w ∈ ws,
        w < s.calls.length + 1 ∧ ∀ l, Joined (tr ++ [⟨s, .resolve query, s.resolve query⟩]) w l →
          (s.resolve query).Leads l key ∨ (s.resolve query).Dropped l := by
      intro key ws hlook w hmem
      obtain ⟨hlt, hslot⟩ := h.slot key ws hlook w hmem
      refine ⟨by omega, fun l hj => ?_⟩
      rcases hjoined hj with hj | ⟨hlen, -⟩
      · rcases hslot l hj with hlead | ⟨cl, hcl, hp⟩
        · exact .inl (hlead.resolve query)
        · exact .inr ⟨cl, callAt_resolve_of_some hcl, hp⟩
      · omega
    intro key ws hlook w hmem
    rw [length_resolve]
    rw [lookup_resolve] at hlook
    split at hlook
    · rename_i hkey
      obtain rfl := hkey
      obtain rfl := Option.some.inj hlook
      split at hmem
      · rename_i ws hws
        rcases List.mem_append.mp hmem with hmem | hmem
        · exact hold _ ws hws w hmem
        · obtain rfl := List.mem_singleton.mp hmem
          refine ⟨Nat.lt_succ_self _, fun l hj => ?_⟩
          rcases hjoined hj with hj | ⟨-, hlead⟩
          · exact absurd (h.joined_lt hj) (Nat.lt_irrefl _)
          · exact .inl (hlead.resolve query)
      · cases hmem
    · exact hold key ws hlook w hmem
  case obtained =>
    intro l o ho
    obtain ⟨cl, hcl, hpast⟩ := h.obtained l o (hobtained ho)
    exact ⟨cl, callAt_resolve_of_some hcl, hpast⟩
  case obtained_unique =>
    exact fun l o o' ho ho' => h.obtained_unique l o o' (hobtained ho) (hobtained ho')
  case returned =>
    intro l cl o hcl hrole hp
    rcases callAt_resolve hcl with hold | ⟨-, -, ⟨-, -, hp'⟩ | ⟨-, -, hp'⟩⟩
    · exact (h.returned l cl o hold hrole hp).concat _
    · rw [hp] at hp'
      cases hp'
    · rw [hp] at hp'
      cases hp'

/-! ### A leader takes out its slot and serves who waits in it -/

theorem Told.erase (h : Told tr s) (key : Key) :
    Told tr { s with inflight := s.inflight.erase key } where
  joined := h.joined
  joined_unique := h.joined_unique
  slot key' ws hlook := h.slot key' ws (HashMap.lookup_erase_eq_some_iff.mp hlook).2
  obtained := h.obtained
  obtained_unique := h.obtained_unique
  returned := h.returned

theorem Told.takeOut (h : Told tr s) (hc : s.callAt id = some c) (hp : c.phase = .finished o) :
    Told tr (s.takeOut id c.query.key o) := by
  refine (h.erase c.query.key).setPhase (p := .sending o _) hc (fun _ _ hj => hj)
    (fun _ _ ho => .inl ho) (fun _ _ ho => ho) (by rw [hp]; nofun) (fun key ws hlook hlead => ?_)
    (fun _ => rfl) nofun
  -- no slot of its own is left
  obtain ⟨c', hc', hkey, -⟩ := hlead
  obtain rfl := Option.some.inj (hc'.symm.trans hc)
  exact absurd hkey.symm (HashMap.lookup_erase_eq_some_iff.mp hlook).1

theorem Told.deliver (h : Told tr s) (w : ℕ) (o : Outcome) : Told tr (s.deliver w o) := by
  rcases deliver_cases s w o with ⟨c, hc, hp, heq⟩ | ⟨-, heq⟩
  · rw [heq]
    refine h.setPhase hc (fun _ _ hj => hj) (fun _ _ ho => .inl ho) (fun _ _ ho => ho)
      (by rw [hp]; nofun) (fun key ws _ hlead => ?_) (fun _ => rfl) nofun
    obtain ⟨c', hc', -, hholds⟩ := hlead
    obtain rfl := Option.some.inj (hc'.symm.trans hc)
    rw [hp] at hholds
    cases hholds
  · rw [heq]
    exact h

/-- A call that is not waiting for anything is not delivered to. -/
theorem callAt_deliver (h : s.callAt id = some c) (hp : c.phase ≠ .waiting none) (w : ℕ)
    (o : Outcome) : (s.deliver w o).callAt id = some c := by
  rcases deliver_cases s w o with ⟨c', hc', hp', heq⟩ | ⟨-, heq⟩
  · have hne : id ≠ w := by
      rintro rfl
      obtain rfl := Option.some.inj (h.symm.trans hc')
      exact hp hp'
    rw [heq, setPhase_of_ne hne, h]
  · rw [heq, h]

theorem Told.send {ws : List ℕ} (h : Told tr s) (hc : s.callAt id = some c)
    (hp : c.phase = .sending o (w :: ws)) :
    Told tr ((s.deliver w o.clone).setPhase id (.sending o ws)) := by
  have hc' := callAt_deliver hc (by rw [hp]; nofun) w o.clone
  refine (h.deliver w o.clone).setPhase hc' (fun _ _ hj => hj) (fun _ _ ho => .inl ho)
    (fun _ _ ho => ho) (by rw [hp]; nofun) (fun key ws _ hlead => ?_) (fun _ => rfl) nofun
  obtain ⟨c₀, hc₀, -, hholds⟩ := hlead
  obtain rfl := Option.some.inj (hc₀.symm.trans hc')
  rw [hp] at hholds
  cases hholds

/-! ### Every state of a run -/

theorem Told.step (h : Told tr s) (hw : Wired tr s) (hstep : s.step e = some s') :
    Told (tr ++ [⟨s, e, s'⟩]) s' := by
  rcases step_cases hstep with ⟨query, rfl, rfl⟩ | ⟨id, c, p, hc, hadv, rfl⟩ |
    ⟨id, c, o, rfl, hc, hp, rfl⟩ | ⟨id, c, o, w, ws, rfl, hc, hp, rfl⟩
  · exact h.resolve hw query
  · exact h.advance hw hc hadv
  · exact (h.concat (fun _ h => by cases h) fun _ _ h => by cases h).takeOut hc hp
  · exact (h.concat (fun _ h => by cases h) fun _ _ h => by cases h).send hc hp

theorem told_of_run (h : Run tr s) : Told tr s :=
  h.invariant (I := Told) told_new fun _ _ _ _ hrun hi hstep => hi.step (wired_of_run hrun) hstep

/-- The leader of who waits has not returned. -/
theorem Told.not_returned (h : Told tr s) (hw : Wired tr s) (hj : Joined tr w l) {cw cl : Call}
    (hcw : s.callAt w = some cw) (hwait : cw.phase = .waiting none) (hcl : s.callAt l = some cl) :
    cl.phase ≠ .returned o := by
  intro hp
  rcases senderAlive_iff.mp (hw.alive w cw hcw hwait) with
    ⟨key, ws, hlook, hmem⟩ | ⟨l', c', hc', hmem⟩
  · rcases (h.slot key ws hlook w hmem).2 l hj with ⟨c', hc', -, hholds⟩ | ⟨c', hc', hdropped⟩
    · obtain rfl := Option.some.inj (hcl.symm.trans hc')
      rw [hp] at hholds
      cases hholds
    · obtain rfl := Option.some.inj (hcl.symm.trans hc')
      rw [hp] at hdropped
      cases hdropped
  · -- it is in the hands of the leader it joined
    obtain rfl := h.joined_unique w l l' hj (hw.serving l' c' hc' w hmem)
    obtain rfl := Option.some.inj (hcl.symm.trans hc')
    rw [hp] at hmem
    cases hmem

/-- What a follower has heard is what its leader came back with. -/
theorem Told.eq_of_heard (h : Told tr s) (hj : Joined tr w l) (ho : Obtained tr l o)
    (hheard : Heard tr w o') : o' = o.clone := by
  obtain ⟨l', o₁, hj', ho', rfl⟩ := hheard
  obtain rfl := h.joined_unique w l l' hj hj'
  rw [h.obtained_unique l o o₁ ho ho']

/-- **What shared calls are told**, wherever futures are dropped: no key has two inner
resolutions in flight; a call comes back with what it obtained itself, or with the clone of what
the leader it joined obtained for its key; and when a leader has returned, all who joined it
have been told, or were dropped. -/
theorem answers_shared (h : Run tr s) :
    (∀ id id' c c', s.callAt id = some c → s.callAt id' = some c' → c.phase = .running →
      c'.phase = .running → c.query.key = c'.query.key → id = id') ∧
    (∀ w c o, s.callAt w = some c → c.phase = .returned o →
      c.role = .leader ∧ Obtained tr w o ∨
        ∃ l c' o', s.callAt l = some c' ∧ c'.query.key = c.query.key ∧ Joined tr w l ∧
          Obtained tr l o' ∧ o = o'.clone) ∧
    ∀ l c o, s.callAt l = some c → c.phase = .returned o → ∀ w, Joined tr w l →
      ∃ c', s.callAt w = some c' ∧ (c'.phase = .waiting (some o.clone) ∨
        c'.phase = .returned o.clone ∨ c'.phase = .dropped) := by
  have hw := wired_of_run h
  have ht := told_of_run h
  refine ⟨fun id id' c c' hc hc' hp hp' hkey => ?_, fun w c o hc hp => ?_,
    fun l c o hc hp w hj => ?_⟩
  · exact hw.unique id id' c.query.key ⟨c, hc, rfl, by rw [hp]; rfl⟩
      ⟨c', hc', hkey.symm, by rw [hp']; rfl⟩
  · cases hrole : c.role with
    | leader => exact .inl ⟨rfl, ht.returned w c o hc hrole hp⟩
    | follower =>
      obtain ⟨l, o', hj, ho, rfl⟩ := hw.heard w c o hc (.inr ⟨hrole, hp⟩)
      obtain ⟨cw, cl, hcw, hcl, -, -, hkey⟩ := ht.joined w l hj
      obtain rfl := Option.some.inj (hc.symm.trans hcw)
      exact .inr ⟨l, cl, o', hcl, hkey, hj, ho, rfl⟩
  · obtain ⟨cw, cl, hcw, hcl, hfollows, hleads, -⟩ := ht.joined w l hj
    obtain rfl := Option.some.inj (hc.symm.trans hcl)
    have ho := ht.returned l c o hc hleads hp
    refine ⟨cw, hcw, ?_⟩
    have hrole : cw.phase.role ≠ some .leader := fun hleader => by
      have hrole' := hw.role_eq w cw _ hcw hleader
      rw [hfollows] at hrole'
      cases hrole'
    cases hphase : cw.phase with
    | waiting received =>
      cases received with
      | none => exact absurd hp (ht.not_returned hw hj hcw hphase hc)
      | some o' => rw [ht.eq_of_heard hj ho (hw.heard w cw o' hcw (.inl hphase))]; exact .inl rfl
    | returned o' =>
      rw [ht.eq_of_heard hj ho (hw.heard w cw o' hcw (.inr ⟨hfollows, hphase⟩))]
      exact .inr (.inl rfl)
    | dropped => exact .inr (.inr rfl)
    | created | running | finished | sending =>
      rw [hphase] at hrole
      exact absurd rfl hrole

/-- Three calls share one resolution, and one of the followers is dropped. -/
theorem answers_shared_dropped : ∃ tr s, Run tr s ∧
    tr.map Step.input = [.resolve sampleQuery, .resolve sampleQuery, .resolve sampleQuery, .poll 0,
      .drop 1, .innerDone 0 (.error .resolveNxDomain), .removeSlot 0, .send 0, .send 0, .send 0] ∧
    ∀ w, Joined tr w 0 → ∃ c', s.callAt w = some c' ∧
      (c'.phase = .waiting (some (.error .resolveNxDomain)) ∨
        c'.phase = .returned (.error .resolveNxDomain) ∨ c'.phase = .dropped) := by
  have hexec : (Transition.exec step new [.resolve sampleQuery, .resolve sampleQuery,
      .resolve sampleQuery, .poll 0, .drop 1, .innerDone 0 (.error .resolveNxDomain),
      .removeSlot 0, .send 0, .send 0, .send 0]).any (fun p => decide (p.2.callAt 0 =
        some ⟨sampleQuery, .leader, .returned (.error .resolveNxDomain)⟩)) = true := by
    decide +kernel
  obtain ⟨tr, s, hrun, hinputs, htest⟩ := Transition.exists_run_where hexec
  exact ⟨tr, s, hrun, hinputs, (answers_shared hrun).2.2 0 _ _ (of_decide_eq_true htest) rfl⟩

end SingleFlight

end Dns

end DevBrowse
