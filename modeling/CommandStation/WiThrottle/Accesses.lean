import CommandStation.WiThrottle.Objects

/-!
# Accesses to the objects of the clients

A call goes well if it does not come upon an object that it, or a call before it, has deleted. Whether it
does can be told from the lines of a buffer, the times of the last heartbeats, and the stashed instance.
-/

namespace CommandStation.WiThrottle

open CommandStation.Lib

variable {platform : Platform} {exrail : Bool}

/-! ## Where nothing goes wrong -/

/-- The members of the object are read or written. -/
def Turn.accesses (turn : Turn) : Bool :=
  match turn.action with
  | .driveAway _ => false
  | .addLoco _ lengthChar locoid => throttleOf lengthChar == lorS locoid && turn.answers.slot
  | action => action.usesClient

/-- What comes behind `Q` does not access the object. -/
def Sequential : List Turn → Prop
  | [] => True
  | turn :: turns =>
    (turn.action = .quit → ∀ later ∈ turns, later.accesses = false) ∧ Sequential turns

/-- No line needs the object after `Q`, no client is found to be timed out, and the stashed instance is
not deleted when it is needed. -/
def Throttles.Safe (s : Throttles) : Call platform exrail → Prop
  | .parse _ received _ _ => Sequential received.turns
  | .loop now _ _ => ∀ this, s.live this = true → (s.mem this).timedOut now = false
  | .getLocoCallback locoid answers marked => ∀ this ∈ s.stashInstance,
      (callbackTurn platform s locoid answers marked).accesses = true → s.live this = true
  | .forget _ | .markForBroadcast _ => True

/-! ## Lines -/

section Calls

variable {s : Throttles} {this : Nat} {turn : Turn} {turns : List Turn} {xs : List Nat}

/-- What a line leaves when the object is there. -/
def Left (this : Nat) (turn : Turn) (s : Throttles) : Prop :=
  s.Inv ∧ (s.live this = true ↔ turn.action ≠ .quit)

theorem left_write (h : s.Inv) (hlive : s.live this = true) (hquit : turn.action ≠ .quit)
    {f : Throttle → Throttle} (hf : ∀ o, (f o).nextThrottle = o.nextThrottle) :
    wp (fun _ => False) (writeThis this f) (fun _ s' => Left this turn s') s := by
  refine wp_mono (sameList_writeThis hlive hf) fun _ s' hs' => ⟨hs'.inv h, ?_⟩
  rw [hs'.live]
  exact iff_of_true hlive hquit

/-- **A line, while the object is there.** -/
theorem wp_take (h : s.Inv) (hlive : s.live this = true) :
    wp (fun _ => False) (take this turn) (fun _ s' => Left this turn s') s := by
  obtain ⟨xs, hxs⟩ := h
  obtain ⟨action, answers, marked⟩ := turn
  have hsame : action ≠ .quit → Left this ⟨action, answers, marked⟩ s := by
    intro hquit
    exact ⟨⟨xs, hxs⟩, iff_of_true hlive hquit⟩
  have hwrite : action ≠ .quit → ∀ {f : Throttle → Throttle}, (∀ o, (f o).nextThrottle = o.nextThrottle) →
      wp (fun _ => False) (writeThis this f) (fun _ s' => Left this ⟨action, answers, marked⟩ s') s := by
    intro hquit f hf
    exact left_write ⟨xs, hxs⟩ hlive hquit hf
  -- only `Q` deletes the object; every other line writes it, or leaves it alone
  cases action with
  | nothing => exact hsame nofun
  | heartBeatEnable on =>
    simp only [take]
    exact hwrite nofun fun _ => rfl
  | setMainPower on => exact hsame nofun
  | createNewTask route animation =>
    cases animation with
    | false => exact hsame nofun
    | true =>
      simp only [take, wp_bind, wp_pure]
      rw [wp_readThis hlive]
      exact hsame nofun
  | accessory action id => exact hsame nofun
  | heartbeat =>
    simp only [take]
    exact hwrite nofun fun _ => rfl
  | sendIntro =>
    simp only [take]
    exact hwrite nofun fun _ => rfl
  | noValidLoco locoid => exact hsame nofun
  | driveAway throttleChar =>
    exact ⟨⟨xs, hxs.links, hxs.nodup, hxs.live, hxs.fresh⟩, iff_of_true hlive nofun⟩
  | zeroAddress => exact hsame nofun
  | addLoco throttleChar lengthChar locoid =>
    refine wp_ite (fun _ => hsame nofun) fun _ => hwrite nofun ?_
    exact fun _ => rfl
  | removeLocos throttleChar locoid =>
    simp only [take]
    exact hwrite nofun fun _ => rfl
  | locos throttleChar cab action =>
    simp only [take, wp_bind]
    refine wp_mono (sameList_writeThis hlive fun _ => rfl) fun _ s₁ hs₁ => ?_
    refine wp_mono (wp_markEach (hs₁.listed hxs) marked) fun _ s₂ hs₂ => ?_
    have hall := hs₁.trans hs₂
    have hlive' : s₂.live this = true := by
      rw [hall.live]
      exact hlive
    exact ⟨hall.inv ⟨xs, hxs⟩, iff_of_true hlive' nofun⟩
  | quit =>
    refine wp_mono (wp_delete hxs ((hxs.live this).mp hlive)) fun _ s' hs' => ?_
    refine ⟨hs'.1, iff_of_false ?_ (not_not_intro rfl)⟩
    rw [hs'.2]
    exact Bool.false_ne_true

/-- A line that does not need the object. -/
theorem wp_take_of_not_accesses (h : s.Inv) (hdead : s.live this = false)
    (haccess : turn.accesses = false) :
    wp (fun _ => False) (take this turn) (fun _ s' => s'.Inv ∧ s'.live this = false) s := by
  obtain ⟨xs, hxs⟩ := h
  obtain ⟨action, answers, marked⟩ := turn
  have hsame : s.Inv ∧ s.live this = false := ⟨⟨xs, hxs⟩, hdead⟩
  cases action with
  | createNewTask route animation =>
    cases animation with
    | false => exact hsame
    | true => cases haccess
  | driveAway throttleChar => exact ⟨⟨xs, hxs.links, hxs.nodup, hxs.live, hxs.fresh⟩, hdead⟩
  | addLoco throttleChar lengthChar locoid =>
    refine wp_ite (fun _ => hsame) fun hadds => ?_
    simp only [Turn.accesses, Bool.and_eq_false_iff, beq_eq_false_iff_ne] at haccess
    exact absurd haccess hadds
  | nothing | setMainPower on | accessory action id | noValidLoco locoid | zeroAddress => exact hsame
  | _ => cases haccess

/-- A line that needs the object that has been deleted. -/
theorem not_wp_take (hdead : s.live this = false) (haccess : turn.accesses = true)
    {Q : Unit → Throttles → Prop} : ¬ wp (fun _ => False) (take this turn) Q s := by
  obtain ⟨action, answers, marked⟩ := turn
  have hwrite : ∀ (f : Throttle → Throttle) (Q : Unit → Throttles → Prop),
      ¬ wp (fun _ => False) (writeThis this f) Q s := by
    intro f Q
    rw [wp_writeThis_deleted hdead]
    exact not_false
  have hread : ∀ Q : Throttle → Throttles → Prop, ¬ wp (fun _ => False) (readThis this) Q s := by
    intro Q
    rw [wp_readThis_deleted hdead]
    exact not_false
  cases action with
  | createNewTask route animation =>
    cases animation with
    | false => cases haccess
    | true =>
      simp only [take, wp_bind]
      exact hread _
  | addLoco throttleChar lengthChar locoid =>
    simp only [Turn.accesses, Bool.and_eq_true, beq_iff_eq] at haccess
    simp only [take, haccess, ne_eq, not_true_eq_false, Bool.true_eq_false, or_self, if_false]
    exact hwrite _ _
  | locos throttleChar cab action =>
    simp only [take, wp_bind]
    exact hwrite _ _
  | quit =>
    simp only [take, delete, wp_bind]
    exact hread _
  | heartBeatEnable on | heartbeat | sendIntro | removeLocos throttleChar locoid =>
    simp only [take]
    exact hwrite _ _
  | _ => cases haccess

theorem sequential_of_not_accesses (h : ∀ turn ∈ turns, turn.accesses = false) : Sequential turns := by
  induction turns with
  | nil => trivial
  | cons turn turns ih =>
    obtain ⟨-, hrest⟩ := List.forall_mem_cons.mp h
    exact ⟨fun _ => hrest, ih hrest⟩

/-- Whether nothing goes wrong in the line loop depends on the lines behind `Q`. -/
theorem takeEach_iff {Q : Throttles → Prop} (hQ : ∀ s' : Throttles, s'.Inv → Q s') (h : s.Inv) :
    (s.live this = true → (wp (fun _ => False) (takeEach this turns) (fun _ => Q) s ↔ Sequential turns)) ∧
      (s.live this = false → (wp (fun _ => False) (takeEach this turns) (fun _ => Q) s ↔
        ∀ turn ∈ turns, turn.accesses = false)) := by
  induction turns generalizing s with
  | nil => exact ⟨fun _ => iff_of_true (hQ s h) trivial, fun _ => iff_of_true (hQ s h) nofun⟩
  | cons turn turns ih =>
    have hcons : wp (fun _ => False) (takeEach this (turn :: turns)) (fun _ => Q) s ↔
        wp (fun _ => False) (take this turn)
          (fun _ => wp (fun _ => False) (takeEach this turns) fun _ => Q) s := by
      rw [takeEach, wp_bind]
    rw [hcons]
    constructor
    · intro hlive
      obtain ⟨⟨⟩, s', hs', hinv, hleft⟩ := wp_iff_exists.mp (@wp_take s this turn h hlive)
      rw [wp_iff_of_ok hs', Sequential]
      by_cases hquit : turn.action = .quit
      · have hdead : s'.live this = false := by
          rw [← Bool.not_eq_true, hleft]
          exact not_not_intro hquit
        rw [(ih hinv).2 hdead]
        refine ⟨fun hrest => ⟨fun _ => hrest, sequential_of_not_accesses hrest⟩, fun h => h.1 hquit⟩
      · rw [(ih hinv).1 (hleft.mpr hquit)]
        exact ⟨fun hrest => ⟨fun hq => absurd hq hquit, hrest⟩, And.right⟩
    · intro hdead
      rw [List.forall_mem_cons]
      cases haccess : turn.accesses with
      | true =>
        exact iff_of_false (not_wp_take hdead haccess) fun hall => Bool.noConfusion hall.1
      | false =>
        obtain ⟨⟨⟩, s', hs', hinv, hdead'⟩ := wp_iff_exists.mp (wp_take_of_not_accesses h hdead haccess)
        rw [wp_iff_of_ok hs', (ih hinv).2 hdead']
        exact (and_iff_right rfl).symm

/-! ## The walk of `loop` -/

/-- A client that has not timed out stays, and so do all the others. -/
theorem wp_checkHeartbeat (hlive : s.live this = true) {now : UInt32}
    (hbeat : (s.mem this).timedOut now = false) (marked : List Int) (functionMap : Int → UInt32) :
    wp (fun _ => False) (checkHeartbeat now marked functionMap this)
      (fun _ s' => SameList s s' ∧ ∀ i, (s'.mem i).timedOut now = (s.mem i).timedOut now) s := by
  unfold checkHeartbeat
  rw [wp_bind, wp_readThis hlive, hbeat, if_neg Bool.false_ne_true, wp_writeThis hlive]
  refine ⟨sameList_write rfl, fun i => ?_⟩
  by_cases hi : i = this
  · simp [Throttles.write, hi, Throttle.timedOut]
  · simp [Throttles.write, hi]

/-- A client that has timed out is deleted. -/
theorem wp_checkHeartbeat_timedOut (h : Listed s xs) (hthis : this ∈ xs) {now : UInt32}
    (hbeat : (s.mem this).timedOut now = true) (marked : List Int) (functionMap : Int → UInt32) :
    wp (fun _ => False) (checkHeartbeat now marked functionMap this)
      (fun _ s' => s'.live this = false) s := by
  have hlive : ∀ s' : Throttles, SameList s s' → s'.live this = true := by
    intro s' hs'
    exact ((hs'.listed h).live this).mpr hthis
  unfold checkHeartbeat
  rw [wp_bind, wp_readThis (hlive s (.refl s)), if_pos hbeat, wp_bind]
  refine wp_mono (wp_markEach h marked) fun _ s₁ hs₁ => ?_
  rw [wp_bind]
  refine wp_mono (sameList_writeThis (hlive s₁ hs₁) fun o => ?_) fun _ s₂ hs₂ => ?_
  · split <;> rfl
  exact wp_mono (wp_delete ((hs₁.trans hs₂).listed h) hthis) fun _ _ hs' => hs'.2

/-- The walk goes on behind a client that is there, and not behind one that has been deleted. -/
theorem walk_iff (now : UInt32) (marked : Nat → List Int) (functionMap : Int → UInt32) {fuel : Nat}
    {ys : List Nat} {p : Option Nat} (h : Listed s xs) (hlinks : Links s.nextOf p ys) (hsub : ys ⊆ xs)
    (hfuel : ys.length ≤ fuel) {Q : Throttles → Prop} (hQ : ∀ s', SameList s s' → Q s') :
    wp (fun _ => False) (loop (fun wt (_ : Unit) => do
        checkHeartbeat now (marked wt) functionMap wt
        let o ← readThis wt
        pure (o.nextThrottle, ())) .endless fuel p ()) (fun _ => Q) s ↔
      ∀ wt ∈ ys, (s.mem wt).timedOut now = false := by
  -- over the clients that are still to be visited
  induction ys generalizing s p fuel with
  | nil =>
    obtain rfl := links_nil.mp hlinks
    rw [wp_loop_none]
    exact iff_of_true (hQ s (.refl s)) nofun
  | cons wt ys ih =>
    obtain ⟨rfl, hrest⟩ := links_cons.mp hlinks
    obtain ⟨hwt, hsub⟩ := List.cons_subset.mp hsub
    cases fuel with
    | zero => exact absurd hfuel (Nat.not_succ_le_zero _)
    | succ fuel =>
      rw [loop, List.forall_mem_cons]
      simp only [wp_bind, wp_pure]
      have hlive := (h.live wt).mpr hwt
      cases hbeat : (s.mem wt).timedOut now with
      | true =>
        -- the heartbeat deletes this client, and its `nextThrottle` is read afterwards
        refine iff_of_false ?_ fun hall => Bool.noConfusion hall.1
        obtain ⟨⟨⟩, s', hs', hdead⟩ := wp_iff_exists.mp
          (wp_checkHeartbeat_timedOut h hwt hbeat (marked wt) functionMap)
        rw [wp_iff_of_ok hs', wp_readThis_deleted hdead]
        exact not_false
      | false =>
        obtain ⟨⟨⟩, s', hs', hsame, hbeats⟩ := wp_iff_exists.mp
          (wp_checkHeartbeat hlive hbeat (marked wt) functionMap)
        have hlive' : s'.live wt = true := by
          rw [hsame.live]
          exact hlive
        rw [wp_iff_of_ok hs', wp_readThis hlive', and_iff_right rfl]
        have hrest' : Links s'.nextOf (s'.mem wt).nextThrottle ys := by
          show Links s'.nextOf (s'.nextOf wt) ys
          rw [hsame.next]
          exact hrest
        have hwalk := ih (hsame.listed h) hrest' hsub (Nat.le_of_succ_le_succ hfuel)
          fun s'' hs'' => hQ s'' (hsame.trans hs'')
        simp only [hbeats] at hwalk
        exact hwalk

/-! ## Runs -/

/-- **A call goes well exactly if it is safe**, and then the list is what is there. -/
theorem exec_iff (h : s.Inv) (call : Call platform exrail) {Q : Throttles → Prop}
    (hQ : ∀ s' : Throttles, s'.Inv → Q s') :
    wp (fun _ => False) call.exec (fun _ => Q) s ↔ s.Safe call := by
  obtain ⟨xs, hxs⟩ := h
  cases call with
  | parse clientId received now memory =>
    obtain ⟨this, s₁, hs₁, hinv₁, hlive₁⟩ := wp_iff_exists.mp (wp_getThrottle ⟨xs, hxs⟩ clientId memory)
    obtain ⟨⟨⟩, s₂, hs₂, hsame⟩ := wp_iff_exists.mp (sameList_writeThis (F := fun _ => False) hlive₁
      (f := fun o => { o with heartBeat := now, sent := (metadata o.sent).1 }) fun _ => rfl)
    have hlive₂ : s₂.live this = true := by
      rw [hsame.live]
      exact hlive₁
    rw [Call.exec, wp_bind, wp_iff_of_ok hs₁, parseTurns, wp_bind, wp_iff_of_ok hs₂]
    exact (takeEach_iff hQ (hsame.inv hinv₁)).1 hlive₂
  | forget clientId =>
    refine iff_of_true ?_ trivial
    rw [Call.exec, WiThrottle.forget, wp_bind]
    apply wp_findThrottle hxs
    · exact fun wt hwt _ => wp_mono (wp_delete hxs hwt) fun _ s' hs' => hQ s' hs'.1
    · exact fun _ => hQ s ⟨xs, hxs⟩
  | loop now marked functionMap =>
    have hwalk := walk_iff now marked functionMap hxs hxs.links (List.Subset.refl xs) hxs.length_le
      fun s' hs' => hQ s' (hs'.inv ⟨xs, hxs⟩)
    rw [Call.exec, forThrottles, wp_bind, wp_get]
    beta_reduce
    rw [hwalk]
    simp only [Throttles.Safe, hxs.live]
  -- the stashed object may have been deleted since
  | getLocoCallback locoid answers marked =>
    simp only [Call.exec, Throttles.Safe, wp_bind, wp_get]
    cases hstash : s.stashInstance with
    | none => exact iff_of_true (hQ s ⟨xs, hxs⟩) nofun
    | some this =>
      simp only [Option.mem_some_iff, forall_eq']
      generalize callbackTurn platform s locoid answers marked = turn
      cases hlive : s.live this with
      | true =>
        refine iff_of_true ?_ fun _ => rfl
        exact wp_mono (wp_take ⟨xs, hxs⟩ hlive) fun _ s' hs' => hQ s' hs'.1
      | false =>
        cases haccess : turn.accesses with
        | true => exact iff_of_false (not_wp_take hlive haccess) fun h => Bool.noConfusion (h rfl)
        | false =>
          refine iff_of_true ?_ nofun
          exact wp_mono (wp_take_of_not_accesses ⟨xs, hxs⟩ hlive haccess) fun _ s' hs' => hQ s' hs'.1
  | markForBroadcast cab =>
    refine iff_of_true (wp_mono (wp_markForBroadcast hxs cab) fun _ s' hs' => ?_) trivial
    exact hQ s' (hs'.inv ⟨xs, hxs⟩)

theorem inv_start : Throttles.start.Inv :=
  ⟨[], links_nil.mpr rfl, List.nodup_nil, fun _ => iff_of_false Bool.false_ne_true nofun, nofun⟩

end Calls

/-- **Every access is to an object that is on the list** exactly if all calls are safe. -/
theorem accesses_listed_iff (calls : List (Call platform exrail)) :
    wp (fun _ => False) (runProg Call.exec calls) (fun _ s => s.Inv) Throttles.start ↔
      AlongProg Call.exec Throttles.Safe calls Throttles.start :=
  wp_runProg_iff Throttles.Inv (fun _ call h hsafe => (exec_iff h call fun _ h' => h').mpr hsafe)
    (fun _ call h hrun => (exec_iff h call fun _ _ => trivial).mp hrun) inv_start

/-- `Q` and `N` in one buffer. -/
def quitAndBeat : Received .avr true where
  buffer := [81, 10, 78, 10, 0]
  turns := [⟨.quit, ⟨true, 0, 0, 0⟩, []⟩, ⟨.heartbeat, ⟨true, 0, 0, 0⟩, []⟩]
  reads := by decide

/-- `N` looks whether the object that `Q` has deleted has sent the introduction. -/
theorem not_accesses_listed : ¬ ∀ (platform : Platform) (exrail : Bool)
    (calls : List (Call platform exrail)),
    wp (fun _ => False) (runProg Call.exec calls) (fun _ s => s.Inv) Throttles.start := by
  intro h
  have hrun : runProg Call.exec [.parse 1 quitAndBeat 0 ⟨0, fun _ => ⟨'\x00', 0, false, 0, 0⟩⟩]
      Throttles.start = .error (.deleted 0) := rfl
  have hfine := h .avr true [.parse 1 quitAndBeat 0 ⟨0, fun _ => ⟨'\x00', 0, false, 0, 0⟩⟩]
  rw [wp, hrun] at hfine
  exact hfine

end CommandStation.WiThrottle
