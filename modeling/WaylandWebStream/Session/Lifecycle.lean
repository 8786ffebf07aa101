import WaylandWebStream.Session.Manager

/-!
# Lifecycle — one child, and none after the shutdown

`ensure_started` keeps the flag, the kill handle and the watcher's handle in
three places, and stores them one after the other; `shutdown` takes what it
finds there. `Kept` says where the handles of a living child can be. A
shutdown that comes before they are stored, or before the flag is even
taken, returns over a child that lives, or will (`lifecycle_iff`).
-/

namespace WaylandWebStream

namespace Session

/-! ## Bookkeeping -/

section Bookkeeping

variable {started locked : Bool} {watcher : Option ℕ} {children : List Child}
  {ensures : ℕ → Ensure} {shutdowns : ℕ → Shutdown} {i k c : ℕ} {e : Ensure} {d : Shutdown}

/-- **Where the handles are**: one call holds the flag at a time, and the
watcher of a living child is with that call, stored, or being awaited. -/
structure Kept (started : Bool) (watcher : Option ℕ) (locked : Bool) (children : List Child)
    (ensures : ℕ → Ensure) (shutdowns : ℕ → Shutdown) : Prop where
  few : children.length ≤ 1
  unique : ∀ i j, (ensures i).busy = true → (ensures j).busy = true → i = j
  flag : ∀ i, (ensures i).busy = true → started = true
  born : children ≠ [] → started = true
  retries : started = true → children ≠ [] ∨ ∃ i, (ensures i).busy = true
  empty : ∀ i, (ensures i).busy = true → (ensures i).child = none → children = []
  holds : ∀ i c, (ensures i).child = some c → c < children.length
  done : ∀ child ∈ children, child.watcher = .done → child.alive = false
  handled : ∀ c child, children[c]? = some child → child.alive = true →
    (∃ i, (ensures i).child = some c) ∨ watcher = some c ∨ ∃ k, shutdowns k = .awaiting c
  lock : ∀ k c, shutdowns k = .awaiting c → locked = true
  awaits : ∀ k k' c c', shutdowns k = .awaiting c → shutdowns k' = .awaiting c' → k = k'

theorem Ensure.busy_of_child (h : e.child = some c) : e.busy = true := by
  cases e with
  | spawned | armed | watched => rfl
  | called | claimed | failed | returned => cases h

/-- Something happens to a child that brings none back to life. -/
theorem Kept.modify (h : Kept started watcher locked children ensures shutdowns)
    (f : Child → Child) (halive : ∀ child, (f child).alive = true → child.alive = true)
    (hdone : ∀ child, children[c]? = some child → (f child).watcher = .done →
      (f child).alive = false) :
    Kept started watcher locked (children.modify c f) ensures shutdowns where
  few := by rw [List.length_modify]; exact h.few
  unique := h.unique
  flag := h.flag
  born hne := h.born fun hnil => hne (by rw [hnil, List.modify_nil])
  retries hstarted := (h.retries hstarted).imp_left fun hne hnil => by
    have hlen := congrArg List.length hnil
    rw [List.length_modify] at hlen
    exact hne (List.length_eq_zero_iff.1 hlen)
  empty i hbusy hchild := by rw [h.empty i hbusy hchild, List.modify_nil]
  holds i c hchild := by rw [List.length_modify]; exact h.holds i c hchild
  done child hchild := by
    obtain ⟨j, hj⟩ := List.mem_iff_getElem?.1 hchild
    rw [List.getElem?_modify] at hj
    split at hj
    · rename_i hcj
      obtain ⟨old, hold, rfl⟩ := Option.map_eq_some_iff.1 hj
      exact hdone old (hcj ▸ hold)
    · exact h.done child (List.mem_of_getElem? (by simpa using hj))
  handled j child hj hlives := by
    rw [List.getElem?_modify] at hj
    split at hj
    · obtain ⟨old, hold, rfl⟩ := Option.map_eq_some_iff.1 hj
      exact h.handled j old hold (halive old hlives)
    · exact h.handled j child (by simpa using hj) hlives
  lock := h.lock
  awaits := h.awaits

/-- The kill channel of a child resolves. -/
theorem Kept.kill (h : Kept started watcher locked children ensures shutdowns) (c : ℕ) :
    Kept started watcher locked (children.modify c fun child => { child with killed := true })
      ensures shutdowns :=
  h.modify _ (fun _ => id) fun child hchild => h.done child (List.mem_of_getElem? hchild)

/-- A call goes on, with what it had. -/
theorem Kept.relabel (h : Kept started watcher locked children ensures shutdowns)
    (hbusy : e.busy = (ensures i).busy) (hchild : e.child = (ensures i).child) :
    Kept started watcher locked children (Function.update ensures i e) shutdowns := by
  have hb : ∀ j, (Function.update ensures i e j).busy = (ensures j).busy := by
    intro j
    rw [Function.update_apply]
    split
    · rename_i hj
      rw [hbusy, hj]
    · rfl
  have hc : ∀ j, (Function.update ensures i e j).child = (ensures j).child := by
    intro j
    rw [Function.update_apply]
    split
    · rename_i hj
      rw [hchild, hj]
    · rfl
  exact { few := h.few
          unique := by simpa only [hb] using h.unique
          flag := by simpa only [hb] using h.flag
          born := h.born
          retries := by simpa only [hb] using h.retries
          empty := by simpa only [hb, hc] using h.empty
          holds := by simpa only [hc] using h.holds
          done := h.done
          handled := by simpa only [hc] using h.handled
          lock := h.lock
          awaits := h.awaits }

/-- A shutdown goes on, and does not await. -/
theorem Kept.request (h : Kept started watcher locked children ensures shutdowns)
    (hold : ∀ c, shutdowns k ≠ .awaiting c) (hnew : ∀ c, d ≠ .awaiting c) :
    Kept started watcher locked children ensures (Function.update shutdowns k d) := by
  have hd : ∀ j c, Function.update shutdowns k d j = .awaiting c ↔ shutdowns j = .awaiting c := by
    intro j c
    rw [Function.update_apply]
    split
    · rename_i hj
      rw [hj]
      exact iff_of_false (hnew c) (hold c)
    · rfl
  exact { few := h.few
          unique := h.unique
          flag := h.flag
          born := h.born
          retries := h.retries
          empty := h.empty
          holds := h.holds
          done := h.done
          handled := by simpa only [hd] using h.handled
          lock := by simpa only [hd] using h.lock
          awaits := by simpa only [hd] using h.awaits }

/-- While no call holds the flag and it is not set, there is no child. -/
theorem Kept.idle (h : Kept false watcher locked children ensures shutdowns) :
    children = [] ∧ ∀ j, (ensures j).busy = false := by
  refine ⟨?_, fun j => ?_⟩
  · by_contra hne
    cases h.born hne
  · cases hbusy : (ensures j).busy with
    | false => rfl
    | true => cases h.flag j hbusy

/-- A call takes the flag. -/
theorem Kept.claim (h : Kept false watcher locked children ensures shutdowns) :
    Kept true watcher locked children (Function.update ensures i .claimed) shutdowns := by
  obtain ⟨rfl, hidle⟩ := h.idle
  have hat : ∀ j, (Function.update ensures i .claimed j).busy = true → j = i := by
    intro j hbusy
    rw [Function.update_apply] at hbusy
    split at hbusy
    · assumption
    · rw [hidle j] at hbusy
      cases hbusy
  exact { few := h.few
          unique := fun j j' hj hj' => (hat j hj).trans (hat j' hj').symm
          flag := fun _ _ => rfl
          born := fun _ => rfl
          retries := fun _ => .inr ⟨i, by rw [Function.update_self]; rfl⟩
          empty := fun _ _ _ => rfl
          holds := fun j c hchild => by
            obtain rfl := hat j (Ensure.busy_of_child hchild)
            rw [Function.update_self] at hchild
            cases hchild
          done := h.done
          handled := fun c child hchild => (by cases hchild)
          lock := h.lock
          awaits := h.awaits }

/-- The call that holds the flag ends without a child. -/
theorem Kept.reset (h : Kept started watcher locked children ensures shutdowns)
    (hi : ensures i = .failed) :
    Kept false watcher locked children (Function.update ensures i .returned) shutdowns := by
  have hbusy : (ensures i).busy = true := by rw [hi]; rfl
  obtain rfl := h.empty i hbusy (by rw [hi]; rfl)
  have hnone : ∀ j, (Function.update ensures i .returned j).busy ≠ true := by
    intro j hj
    rw [Function.update_apply] at hj
    split at hj
    · cases hj
    · rename_i hne
      exact hne (h.unique j i hj hbusy)
  exact { few := h.few
          unique := fun j _ hj => absurd hj (hnone j)
          flag := fun j hj => absurd hj (hnone j)
          born := fun hne => absurd rfl hne
          retries := fun hstarted => (by cases hstarted)
          empty := fun _ _ _ => rfl
          holds := fun j _ hj => absurd (Ensure.busy_of_child hj) (hnone j)
          done := h.done
          handled := fun c child hchild => (by cases hchild)
          lock := h.lock
          awaits := h.awaits }

/-- The call that holds the flag has a child. -/
theorem Kept.spawn (h : Kept started watcher locked children ensures shutdowns)
    (hi : ensures i = .claimed) :
    Kept started watcher locked (children ++ [⟨true, false, .unborn⟩])
      (Function.update ensures i (.spawned children.length)) shutdowns := by
  have hbusy : (ensures i).busy = true := by rw [hi]; rfl
  obtain rfl := h.empty i hbusy (by rw [hi]; rfl)
  have hat : ∀ j, (Function.update ensures i (.spawned 0) j).busy = true → j = i := by
    intro j hj
    rw [Function.update_apply] at hj
    split at hj
    · assumption
    · exact h.unique j i hj hbusy
  exact { few := Nat.le_refl 1
          unique := fun j j' hj hj' => (hat j hj).trans (hat j' hj').symm
          flag := fun _ _ => h.flag i hbusy
          born := fun _ => h.flag i hbusy
          retries := fun _ => .inl (List.cons_ne_nil _ _)
          empty := fun j hj hchild => by
            obtain rfl := hat j hj
            rw [List.length_nil, Function.update_self] at hchild
            cases hchild
          holds := fun j c hchild => by
            obtain rfl := hat j (Ensure.busy_of_child hchild)
            rw [Function.update_self] at hchild
            obtain rfl := Option.some.inj hchild
            exact Nat.zero_lt_one
          done := fun child hchild => by
            rw [List.nil_append, List.mem_singleton] at hchild
            rw [hchild]
            intro hdone
            cases hdone
          handled := fun c child hchild _ => by
            refine .inl ⟨i, ?_⟩
            have hlt := (List.getElem?_eq_some_iff.1 hchild).1
            rw [List.nil_append, List.length_singleton, Nat.lt_one_iff] at hlt
            rw [Function.update_self, hlt]
            rfl
          lock := h.lock
          awaits := h.awaits }

/-- The watcher's handle goes from the call to its place. -/
theorem Kept.store (h : Kept started watcher locked children ensures shutdowns)
    (hi : ensures i = .watched c) :
    Kept started (some c) locked children (Function.update ensures i .returned) shutdowns := by
  have hbusy : (ensures i).busy = true := by rw [hi]; rfl
  have hlt : c < children.length := h.holds i c (by rw [hi]; rfl)
  have hnone : ∀ j, (Function.update ensures i .returned j).busy ≠ true := by
    intro j hj
    rw [Function.update_apply] at hj
    split at hj
    · cases hj
    · rename_i hji
      exact hji (h.unique j i hj hbusy)
  exact { few := h.few
          unique := fun j _ hj => absurd hj (hnone j)
          flag := fun j hj => absurd hj (hnone j)
          born := h.born
          retries := fun _ => .inl (List.ne_nil_of_length_pos (Nat.zero_lt_of_lt hlt))
          empty := fun j hj => absurd hj (hnone j)
          holds := fun j _ hj => absurd (Ensure.busy_of_child hj) (hnone j)
          done := h.done
          handled := fun c' child hchild hlives => by
            -- there is one child, and it is the one watched
            have hlt' := (List.getElem?_eq_some_iff.1 hchild).1
            have hfew := h.few
            exact .inr (.inl (congrArg some (by omega)))
          lock := h.lock
          awaits := h.awaits }

/-- The watcher's handle goes from its place to a shutdown. -/
theorem Kept.take (h : Kept started (some c) false children ensures shutdowns) :
    Kept started none true children ensures (Function.update shutdowns k (.awaiting c)) := by
  -- a shutdown that awaits holds the lock, and it is free
  have hnone : ∀ j c', shutdowns j ≠ .awaiting c' := fun j c' hj => by
    cases h.lock j c' hj
  have hat : ∀ j c', Function.update shutdowns k (.awaiting c) j = .awaiting c' → j = k := by
    intro j c' hj
    rw [Function.update_apply] at hj
    split at hj
    · assumption
    · exact absurd hj (hnone j c')
  exact { few := h.few
          unique := h.unique
          flag := h.flag
          born := h.born
          retries := h.retries
          empty := h.empty
          holds := h.holds
          done := h.done
          handled := fun c' child hchild hlives => by
            rcases h.handled c' child hchild hlives with hj | hw | ⟨j, hj⟩
            · exact .inl hj
            · obtain rfl := Option.some.inj hw
              exact .inr (.inr ⟨k, Function.update_self ..⟩)
            · exact absurd hj (hnone j c')
          lock := fun _ _ _ => rfl
          awaits := fun j j' c' c'' hj hj' => (hat j c' hj).trans (hat j' c'' hj').symm }

/-- **A shutdown has awaited the watcher**: its child is dead. -/
theorem Kept.release (h : Kept started watcher locked children ensures shutdowns)
    (hk : shutdowns k = .awaiting c) {child : Child} (hchild : children[c]? = some child)
    (hdone : child.watcher = .done) :
    Kept started watcher false children ensures (Function.update shutdowns k .returned) := by
  have hnone : ∀ j c', Function.update shutdowns k .returned j ≠ .awaiting c' := by
    intro j c' hj
    rw [Function.update_apply] at hj
    split at hj
    · cases hj
    · rename_i hne
      exact hne (h.awaits j k c' c hj hk)
  exact { few := h.few
          unique := h.unique
          flag := h.flag
          born := h.born
          retries := h.retries
          empty := h.empty
          holds := h.holds
          done := h.done
          handled := fun c' child' hchild' hlives => by
            -- there is one child, and it is the one awaited
            have hlt := (List.getElem?_eq_some_iff.1 hchild).1
            have hlt' := (List.getElem?_eq_some_iff.1 hchild').1
            have hfew := h.few
            obtain rfl : c' = c := by omega
            rw [hchild] at hchild'
            obtain rfl := Option.some.inj hchild'
            rw [h.done child (List.mem_of_getElem? hchild) hdone] at hlives
            cases hlives
          lock := fun j c' hj => absurd hj (hnone j c')
          awaits := fun j _ c' _ hj => absurd hj (hnone j c') }

end Bookkeeping

/-! ## Steps -/

variable {s s' : State} {a : Action} {i k c : ℕ} {spawns exit : Bool}

/-- The bookkeeping of a state. -/
def State.Booked (s : State) : Prop :=
  Kept s.started s.watcher s.watcherLocked s.children s.ensures s.shutdowns

theorem State.Booked.storeKillTx (h : s.Booked) : (s.storeKillTx c).Booked := by
  unfold State.storeKillTx
  split
  · exact h
  · rename_i old _
    exact Kept.kill h old

theorem ensures_storeKillTx : (s.storeKillTx c).ensures = s.ensures := by
  unfold State.storeKillTx
  split <;> rfl

theorem State.Booked.stepEnsure (h : s.Booked) (hstep : s.stepEnsure i spawns = some s') :
    s'.Booked := by
  unfold State.stepEnsure at hstep
  split at hstep
  · rename_i hi
    split at hstep
    · cases hstep
      exact Kept.relabel h (by rw [hi]; rfl) (by rw [hi]; rfl)
    · rename_i hfree
      cases hstep
      have hflag : s.started = false := by
        rw [not_or, Bool.not_eq_true] at hfree
        exact hfree.2
      rw [State.Booked, hflag] at h
      exact h.claim
  · rename_i hi
    split at hstep
    · cases hstep
      exact Kept.spawn h hi
    · cases hstep
      exact Kept.relabel h (by rw [hi]; rfl) (by rw [hi]; rfl)
  · rename_i hi
    cases hstep
    exact Kept.reset h hi
  · rename_i c hi
    cases hstep
    have hi' : (s.storeKillTx c).ensures i = .spawned c := by rw [ensures_storeKillTx]; exact hi
    exact Kept.relabel h.storeKillTx (by rw [hi']; rfl) (by rw [hi']; rfl)
  · rename_i c hi
    cases hstep
    have hmodified := Kept.modify h (c := c) (fun child => { child with watcher := .waiting })
      (fun _ => id) fun child _ hdone => (by cases hdone)
    exact hmodified.relabel (by rw [hi]; rfl) (by rw [hi]; rfl)
  · rename_i c hi
    split at hstep
    · cases hstep
    · cases hstep
      exact Kept.store h hi
  · cases hstep

theorem State.Booked.stepShutdown (h : s.Booked) (hstep : s.stepShutdown k = some s') :
    s'.Booked := by
  unfold State.stepShutdown at hstep
  split at hstep
  · rename_i hk
    have hidle : ∀ c, s.shutdowns k ≠ .awaiting c := fun c hc => by
      rw [hk] at hc
      cases hc
    split at hstep
    · cases hstep
      exact Kept.request h hidle fun c hc => (by cases hc)
    · rename_i c _
      cases hstep
      exact (Kept.kill h c).request hidle fun c hc => (by cases hc)
  · rename_i hk
    have hidle : ∀ c, s.shutdowns k ≠ .awaiting c := fun c hc => by
      rw [hk] at hc
      cases hc
    split at hstep
    · cases hstep
    · rename_i hlock
      rw [Bool.not_eq_true] at hlock
      split at hstep
      · cases hstep
        exact Kept.request h hidle fun c hc => (by cases hc)
      · rename_i c hwatcher
        cases hstep
        rw [State.Booked, hwatcher, hlock] at h
        exact h.take
  · rename_i c hk
    split at hstep
    · rename_i hdone
      cases hstep
      obtain ⟨child, hchild, hdone⟩ := (Option.any_eq_true _ _).1 hdone
      exact Kept.release h hk hchild (of_decide_eq_true hdone)
    · cases hstep
  · cases hstep

theorem State.Booked.stepWatcher (h : s.Booked) (hstep : s.stepWatcher c exit = some s') :
    s'.Booked := by
  unfold State.stepWatcher at hstep
  split at hstep
  · cases hstep
  · rename_i child hchild
    split at hstep
    · split at hstep
      · split at hstep
        · cases hstep
        · rename_i hdead
          cases hstep
          refine Kept.modify h _ (fun _ => id) fun old hold _ => ?_
          rw [hchild] at hold
          obtain rfl := Option.some.inj hold
          simpa using hdead
      · split at hstep
        · cases hstep
          exact Kept.modify h _ (fun _ => id) fun _ _ hdone => (by cases hdone)
        · cases hstep
    · cases hstep
      exact Kept.modify h _ (fun _ hlives => (by cases hlives)) fun _ _ _ => rfl
    · cases hstep
    · cases hstep

/-- **Steps keep the bookkeeping.** -/
theorem State.Booked.step (h : s.Booked) (hstep : s.step a = some s') : s'.Booked := by
  cases a with
  | ensure i spawns => exact h.stepEnsure hstep
  | shutdown k => exact h.stepShutdown hstep
  | watcher c exit => exact h.stepWatcher hstep
  | exits c =>
    simp only [State.step] at hstep
    split at hstep
    · cases hstep
      exact Kept.modify h _ (fun _ hlives => (by cases hlives)) fun _ _ _ => rfl
    · cases hstep

theorem booked_of_reachable (h : machine.Reachable s) : s.Booked := by
  refine h.invariant (fun s hs => ?_) fun s a s' hstep hbooked => hbooked.step hstep
  obtain ⟨command, rfl⟩ := hs
  exact { few := Nat.zero_le 1
          unique := fun _ _ hbusy => (by cases hbusy)
          flag := fun _ hbusy => (by cases hbusy)
          born := fun hne => absurd rfl hne
          retries := fun hstarted => (by cases hstarted)
          empty := fun _ _ _ => rfl
          holds := fun _ _ hchild => (by cases hchild)
          done := fun _ hchild => (by cases hchild)
          handled := fun _ _ hchild => (by cases hchild)
          lock := fun _ _ hk => (by cases hk)
          awaits := fun _ _ _ _ hk => (by cases hk) }

theorem State.Booked.atMostOne (h : s.Booked) : s.AtMostOne :=
  Nat.le_trans (List.length_filter_le _ _) (Kept.few h)

/-! ## After a shutdown -/

/-- Nothing comes back to life, and no shutdown returns. -/
theorem State.Down.mono (h : s.Down) (hshut : s'.IsDown → s.IsDown)
    (halive : ∀ child ∈ s'.children, child.alive = true →
      ∃ old ∈ s.children, old.alive = true) : s'.Down := by
  intro hdown child hchild
  by_contra hlives
  obtain ⟨old, hold, halive⟩ := halive child hchild (by simpa using hlives)
  rw [h (hshut hdown) old hold] at halive
  cases halive

/-- Something happens to a child, and brings none back to life. -/
theorem State.Down.modify {f : Child → Child} (h : s.Down) (hshut : s'.IsDown → s.IsDown)
    (hchildren : s'.children = s.children.modify c f)
    (hf : ∀ child, (f child).alive = true → child.alive = true) : s'.Down := by
  refine h.mono hshut fun child hchild hlives => ?_
  obtain ⟨j, hj⟩ := List.mem_iff_getElem?.1 hchild
  rw [hchildren, List.getElem?_modify] at hj
  obtain ⟨old, hold, hj⟩ := Option.map_eq_some_iff.1 hj
  refine ⟨old, List.mem_of_getElem? hold, ?_⟩
  split at hj
  · exact hf old (hj ▸ hlives)
  · exact hj ▸ hlives

theorem isDown_setShutdown {d : Shutdown} (hd : d ≠ .returned)
    (hk : s.shutdowns k ≠ .returned) : (s.setShutdown k d).IsDown ↔ s.IsDown := by
  constructor
  · rintro ⟨j, hj⟩
    simp only [State.setShutdown, Function.update_apply] at hj
    split at hj
    · exact absurd hj hd
    · exact ⟨j, hj⟩
  · rintro ⟨j, hj⟩
    refine ⟨j, ?_⟩
    simp only [State.setShutdown, Function.update_apply]
    split
    · rename_i hjk
      exact absurd (hjk ▸ hj) hk
    · exact hj

/-- **An `ensure_started` goes on**: all is down after exactly when it was,
and no child is spawned over it. -/
theorem down_stepEnsure (hdown : s.Down) (hstep : s.stepEnsure i spawns = some s') :
    s'.Down ↔ Ordered s (.ensure i spawns) := by
  have hidle : ∀ e, s.ensures i = e → e ≠ .claimed → Ordered s (.ensure i spawns) :=
    fun e he hne hclaimed => absurd (he.symm.trans hclaimed) hne
  unfold State.stepEnsure at hstep
  split at hstep
  · rename_i hi
    refine iff_of_true ?_ (hidle _ hi (by simp))
    split at hstep
    · cases hstep
      exact hdown
    · cases hstep
      exact hdown
  · rename_i hi
    split at hstep
    · rename_i hspawns
      cases hstep
      -- the new child is alive, so no shutdown may have returned yet
      constructor
      · intro hdown' _ _ hisDown
        have hdead := hdown' hisDown ⟨true, false, .unborn⟩ (by simp)
        cases hdead
      · intro hordered hisDown
        exact absurd hisDown (hordered hi hspawns)
    · rename_i hspawns
      cases hstep
      exact iff_of_true hdown fun _ hyes => absurd hyes hspawns
  · rename_i hi
    cases hstep
    exact iff_of_true hdown (hidle _ hi (by simp))
  · rename_i c hi
    cases hstep
    refine iff_of_true ?_ (hidle _ hi (by simp))
    unfold State.storeKillTx
    split
    · exact hdown
    · exact State.Down.modify hdown id rfl fun _ => id
  · rename_i c hi
    cases hstep
    exact iff_of_true (State.Down.modify hdown id rfl fun _ => id)
      (hidle _ hi (by simp))
  · rename_i c hi
    split at hstep
    · cases hstep
    · cases hstep
      exact iff_of_true hdown (hidle _ hi (by simp))
  · cases hstep

/-- **A shutdown goes on**: it returns over a living child exactly when the
watcher's handle is still with the call that spawned it. -/
theorem down_stepShutdown (h : s.Booked) (hdown : s.Down) (hstep : s.stepShutdown k = some s') :
    s'.Down ↔ Ordered s (.shutdown k) := by
  have hidle : ∀ d, s.shutdowns k = d → d ≠ .requested → Ordered s (.shutdown k) :=
    fun d hd hne hrequested => absurd (hd.symm.trans hrequested) hne
  unfold State.stepShutdown at hstep
  split at hstep
  · rename_i hk
    have hreturned : s.shutdowns k ≠ .returned := by rw [hk]; simp
    refine iff_of_true ?_ (hidle _ hk (by simp))
    split at hstep
    · cases hstep
      exact hdown.mono (isDown_setShutdown (by simp) hreturned).1 fun child hc hl => ⟨child, hc, hl⟩
    · rename_i c _
      cases hstep
      exact hdown.modify (isDown_setShutdown (s := s) (by simp) hreturned).1 rfl fun _ => id
  · rename_i hk
    have hreturned : s.shutdowns k ≠ .returned := by rw [hk]; simp
    split at hstep
    · cases hstep
    · rename_i hlock
      split at hstep
      · rename_i hwatcher
        cases hstep
        -- nobody to await: the shutdown returns, over a child whose handle is not stored yet
        constructor
        · intro hdown' _ _ i c child _ hchild
          exact hdown' ⟨k, Function.update_self ..⟩ child (List.mem_of_getElem? hchild)
        · intro hordered _ child hmem
          obtain ⟨c, hchild⟩ := List.mem_iff_getElem?.1 hmem
          by_contra hlives
          rw [Bool.not_eq_false] at hlives
          rcases Kept.handled h c child hchild hlives with ⟨i, hi⟩ | hw | ⟨j, hj⟩
          · rw [hordered hk hwatcher i c child hi hchild] at hlives
            cases hlives
          · rw [hwatcher] at hw
            cases hw
          · exact hlock (Kept.lock h j c hj)
      · rename_i c hwatcher
        cases hstep
        refine iff_of_true ?_ fun _ hnone => ?_
        · exact hdown.mono (isDown_setShutdown (s := s) (by simp) hreturned).1
            fun child hc hl => ⟨child, hc, hl⟩
        · rw [hwatcher] at hnone
          cases hnone
  · rename_i c hk
    split at hstep
    · rename_i hdone
      cases hstep
      refine iff_of_true (fun _ child hmem => ?_) (hidle _ hk (by simp))
      -- the one child there is was awaited
      obtain ⟨awaited, hawaited, hover⟩ := (Option.any_eq_true _ _).1 hdone
      replace hmem : child ∈ s.children := hmem
      obtain ⟨c', hchild⟩ := List.mem_iff_getElem?.1 hmem
      have hlt := (List.getElem?_eq_some_iff.1 hawaited).1
      have hlt' := (List.getElem?_eq_some_iff.1 hchild).1
      have hfew := Kept.few h
      obtain rfl : c' = c := by omega
      rw [hawaited] at hchild
      obtain rfl := Option.some.inj hchild
      exact Kept.done h awaited hmem (of_decide_eq_true hover)
    · cases hstep
  · cases hstep

/-- **One step**: all stays down exactly when the step is ordered. -/
theorem down_step (h : s.Booked) (hdown : s.Down) (hstep : machine.step s a = some s') :
    s'.Down ↔ Ordered s a := by
  cases a with
  | ensure i spawns => exact down_stepEnsure hdown hstep
  | shutdown k => exact down_stepShutdown h hdown hstep
  | watcher c exit =>
    refine iff_of_true ?_ trivial
    replace hstep : s.stepWatcher c exit = some s' := hstep
    unfold State.stepWatcher at hstep
    split at hstep
    · cases hstep
    · split at hstep
      · split at hstep
        · split at hstep
          · cases hstep
          · cases hstep
            exact State.Down.modify hdown id rfl fun _ => id
        · split at hstep
          · cases hstep
            exact State.Down.modify hdown id rfl fun _ => id
          · cases hstep
      · cases hstep
        exact State.Down.modify hdown id rfl fun _ hlives => (by cases hlives)
      · cases hstep
      · cases hstep
  | exits c =>
    refine iff_of_true ?_ trivial
    replace hstep : s.step (.exits c) = some s' := hstep
    simp only [State.step] at hstep
    split at hstep
    · cases hstep
      exact State.Down.modify hdown id rfl fun _ hlives => (by cases hlives)
    · cases hstep

theorem down_of_reach (h : machine.Reach Ordered s) : s.Down := by
  refine h.invariant_of (fun s hs => booked_of_reachable hs.reachable) (fun s hs => ?_)
    fun s a s' hbooked _ hordered hstep hdown => (down_step hbooked hdown hstep).2 hordered
  obtain ⟨command, rfl⟩ := hs
  rintro ⟨k, hk⟩
  cases hk

/-- **The lifecycle**: at most one child is ever alive, and a failed spawn
leaves the flag to the next call, in every run. In a run whose steps are
ordered no child is alive once a shutdown has returned; the first step that
is not leaves one. -/
theorem lifecycle_iff (h : machine.Reach Ordered s) :
    s.Down ∧ (∀ a s', machine.step s a = some s' → (s'.Down ↔ Ordered s a)) ∧
      ∀ t, machine.Reachable t → t.AtMostOne ∧ t.Retries :=
  ⟨down_of_reach h,
    fun _ _ hstep => down_step (booked_of_reachable h.reachable) (down_of_reach h) hstep,
    fun _ ht => ⟨(booked_of_reachable ht).atMostOne, Kept.retries (booked_of_reachable ht)⟩⟩

/-! ## Calls kept apart -/

theorem shutdowns_stepEnsure (hstep : s.stepEnsure i spawns = some s') :
    s'.shutdowns = s.shutdowns := by
  unfold State.stepEnsure State.storeKillTx at hstep
  split at hstep <;> (try split at hstep) <;> cases hstep <;> rfl

theorem ensures_stepShutdown (hstep : s.stepShutdown k = some s') : s'.ensures = s.ensures := by
  unfold State.stepShutdown at hstep
  split at hstep <;> (try split at hstep) <;> (try split at hstep) <;> cases hstep <;> rfl

theorem calls_stepWatcher (hstep : s.stepWatcher c exit = some s') :
    s'.ensures = s.ensures ∧ s'.shutdowns = s.shutdowns := by
  unfold State.stepWatcher at hstep
  split at hstep
  · cases hstep
  · split at hstep <;> (try split at hstep) <;> (try split at hstep) <;> cases hstep <;>
      exact ⟨rfl, rfl⟩

/-- **The calls are kept apart**: `ensure_started` is not called once a
shutdown was, and `shutdown` not while an `ensure_started` is under way. -/
def Apart (s : State) : Action → Prop
  | .ensure i _ => s.ensures i = .called → ∀ k, s.shutdowns k = .called
  | .shutdown k => s.shutdowns k = .called → ∀ i, (s.ensures i).busy = false
  | .watcher _ _ | .exits _ => True

/-- Once a shutdown was called no `ensure_started` is under way. -/
def State.Quiet (s : State) : Prop :=
  ∀ k, s.shutdowns k ≠ .called → ∀ i, (s.ensures i).busy = false

theorem State.Quiet.step (h : s.Quiet) (hapart : Apart s a) (hstep : machine.step s a = some s') :
    s'.Quiet := by
  intro k hk i
  cases a with
  | ensure j spawns =>
    replace hstep : s.stepEnsure j spawns = some s' := hstep
    rw [shutdowns_stepEnsure hstep] at hk
    -- no call is under way that could go on, and none may begin
    have hidle := h k hk j
    unfold State.stepEnsure at hstep
    cases hj : s.ensures j with
    | called => exact absurd (hapart hj k) hk
    | returned =>
      rw [hj] at hstep
      cases hstep
    | claimed | failed | spawned c | armed c | watched c =>
      rw [hj] at hidle
      cases hidle
  | shutdown j =>
    rw [ensures_stepShutdown hstep]
    by_cases hj : s.shutdowns j = .called
    · exact hapart hj i
    · exact h j hj i
  | watcher c exit =>
    obtain ⟨hensures, hshutdowns⟩ := calls_stepWatcher hstep
    rw [hshutdowns] at hk
    rw [hensures]
    exact h k hk i
  | exits c =>
    replace hstep : s.step (.exits c) = some s' := hstep
    simp only [State.step] at hstep
    split at hstep
    · cases hstep
      exact h k hk i
    · cases hstep

/-- So its steps are ordered. -/
theorem State.Quiet.ordered (h : s.Quiet) : Ordered s a := by
  cases a with
  | ensure i spawns =>
    rintro hclaimed _ ⟨k, hk⟩
    have hidle := h k (by rw [hk]; simp) i
    rw [hclaimed] at hidle
    cases hidle
  | shutdown k =>
    intro hk _ i c child hchild _
    have hidle := h k (by rw [hk]; simp) i
    rw [Ensure.busy_of_child hchild] at hidle
    cases hidle
  | watcher | exits => trivial

/-- **Calls kept apart are safe**: once a shutdown has returned no child is
alive. -/
theorem down_of_apart (h : machine.Reach Apart s) : s.Down := by
  have hquiet : ∀ s, machine.Reach Apart s → s.Quiet := fun s hs =>
    hs.invariant (fun s hinit => by
      obtain ⟨command, rfl⟩ := hinit
      exact fun k hk => absurd rfl hk) fun s a s' hapart hstep hquiet => hquiet.step hapart hstep
  have hordered : machine.Reach Ordered s := by
    induction h with
    | start hs => exact .start hs
    | next hreach _ hstep ih => exact ih.next (hquiet _ hreach).ordered hstep
  exact down_of_reach hordered

/-- A call from its start to its end, its child spawned. -/
def startUp : List Action := List.replicate 5 (.ensure 0 true)

/-- A session started, and shut down after. -/
theorem lifecycle_iff_session : ∃ s, machine.exec (fresh ["labwc"])
      (startUp ++ [.shutdown 0, .shutdown 0, .watcher 0 false, .watcher 0 false, .shutdown 0])
        = some s ∧ s.IsDown ∧
    s.Down ∧ (∀ a s', machine.step s a = some s' → (s'.Down ↔ Ordered s a)) ∧
      ∀ t, machine.Reachable t → t.AtMostOne ∧ t.Retries := by
  have hup : ∀ s : State, s.shutdowns = (fun _ => .called) → Ordered s (.ensure 0 true) := by
    rintro s hs _ _ ⟨k, hk⟩
    rw [hs] at hk
    cases hk
  have hrun : machine.Run Ordered (fresh ["labwc"]) (startUp ++
      [.shutdown 0, .shutdown 0, .watcher 0 false, .watcher 0 false, .shutdown 0]) _ :=
    ⟨hup _ rfl, _, rfl, hup _ rfl, _, rfl, hup _ rfl, _, rfl, hup _ rfl, _, rfl, hup _ rfl, _, rfl,
      fun hk => (by cases hk), _, rfl, fun _ hw => (by cases hw), _, rfl, trivial, _, rfl, trivial,
      _, rfl, fun hk => (by cases hk), _, rfl, rfl⟩
  exact ⟨_, rfl, ⟨0, rfl⟩, lifecycle_iff (Machine.Reach.run _ (.start ⟨_, rfl⟩) hrun)⟩

/-- **A child outlives the shutdown** that comes before its handles are
stored. -/
theorem not_down : ¬ ∀ s, machine.Reachable s → s.Down := by
  intro hall
  have hrun : machine.exec (fresh ["labwc"])
      [.ensure 0 true, .ensure 0 true, .shutdown 0, .shutdown 0] = some _ := rfl
  have hdead := hall _ (machine.reach_of_exec _ (.start ⟨_, rfl⟩) hrun) ⟨0, rfl⟩ _
    (List.mem_singleton_self _)
  cases hdead

end Session

end WaylandWebStream
