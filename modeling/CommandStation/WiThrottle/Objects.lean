import CommandStation.Lib.Links
import CommandStation.Lib.Program
import CommandStation.WiThrottle.Held
import CommandStation.WiThrottle.Parse
import Mathlib.Logic.Function.Basic

/-!
# The objects of the clients

Each client has an object on the list that begins at `firstThrottle`. An object deletes itself when its
client quits or has not been heard of for too long, and it is deleted when its client is disconnected.
There may be a pointer to it still: the line loop has `this`, the walk of `loop` has `wt`, and the
callback of the programming track has `stashInstance`. Here an object keeps its address for itself, and an
access to one that is deleted is a fault.
-/

namespace CommandStation.WiThrottle

open CommandStation.Lib

/-- `class WiThrottle`, with what the client has been sent and its locos. -/
structure Throttle where
  nextThrottle : Option Nat
  clientid : UInt8
  heartBeatEnable : Bool
  heartBeat : UInt32
  sent : Sent
  locos : WiThrottle

/-- The objects by their addresses; `created` is the address of the next one. -/
structure Throttles where
  mem : Nat → Throttle
  live : Nat → Bool
  created : Nat
  firstThrottle : Option Nat
  stashInstance : Option Nat
  stashThrottleChar : UInt8

inductive Misuse where
  | deleted (this : Nat)
  | endless
  deriving DecidableEq, Repr

abbrev Clients (α : Type) : Type := Prog Throttles Misuse α

/-! ## Objects -/

def Throttles.write (s : Throttles) (this : Nat) (o : Throttle) : Throttles :=
  { s with mem := Function.update s.mem this o }

def readThis (this : Nat) : Clients Throttle := do
  let s ← get
  if s.live this then pure (s.mem this) else throw (.deleted this)

def writeThis (this : Nat) (f : Throttle → Throttle) : Clients Unit := do
  let s ← get
  if s.live this then set (s.write this (f (s.mem this))) else throw (.deleted this)

/-- What is in the memory of a new object, of what the constructor does not set. -/
structure Memory where
  heartBeat : UInt32
  myLocos : Fin maxMyLoco → MyLoco

/-- The constructor. -/
def create (wificlientid : UInt8) (memory : Memory) : Clients Nat := do
  let s ← get
  let this := s.created
  let o : Throttle :=
    ⟨s.firstThrottle, wificlientid, false, memory.heartBeat, .fresh, construct memory.myLocos⟩
  set { s with
    mem := Function.update s.mem this o
    live := Function.update s.live this true
    created := this + 1
    firstThrottle := some this }
  pure this

/-- `for (wt=firstThrottle; wt!=NULL; wt=wt->nextThrottle)`, to the first one with `p`. -/
def findThrottle (p : Throttle → Bool) : Clients (Option Nat) := do
  let s ← get
  loop (fun wt _ => do
    let o ← readThis wt
    pure (if p o then (none, some wt) else (o.nextThrottle, none))) .endless s.created s.firstThrottle none

/-- `WiThrottle::getThrottle` -/
def getThrottle (wifiClient : UInt8) (memory : Memory) : Clients Nat := do
  let found ← findThrottle fun o => o.clientid == wifiClient
  match found with
  | some wt => pure wt
  | none => create wifiClient memory

/-- The destructor, and the end of the object. -/
def delete (this : Nat) : Clients Unit := do
  let o ← readThis this
  let s ← get
  if s.firstThrottle = some this then
    set { s with firstThrottle := o.nextThrottle }
  else
    let found ← findThrottle fun wt => wt.nextThrottle == some this
    match found with
    | some wt => writeThis wt fun w => { w with nextThrottle := o.nextThrottle }
    | none => pure ()
  modify fun s => { s with live := Function.update s.live this false }

/-- `WiThrottle::forget` -/
def forget (clientId : UInt8) : Clients Unit := do
  let found ← findThrottle fun o => o.clientid == clientId
  match found with
  | some wt => delete wt
  | none => pure ()

/-- `for (wt=firstThrottle; wt!=NULL; wt=wt->nextThrottle)`, for all. -/
def forThrottles (body : Nat → Clients Unit) : Clients Unit := do
  let s ← get
  loop (fun wt _ => do
    body wt
    let o ← readThis wt
    pure (o.nextThrottle, ())) .endless s.created s.firstThrottle ()

/-- `WiThrottle::markForBroadcast` -/
def markForBroadcast (cab : Int) : Clients Unit :=
  forThrottles fun wt => writeThis wt fun o => { o with locos := o.locos.mark cab }

def markEach : List Int → Clients Unit
  | [] => pure ()
  | cab :: cabs => do
    markForBroadcast cab
    markEach cabs

/-! ## Lines -/

/-- What a line asks for, what the station answers, and the locos that it has a broadcast for. -/
structure Turn where
  action : Action
  answers : Answers
  marked : List Int

/-- The body of the line loop. -/
def take (this : Nat) (turn : Turn) : Clients Unit :=
  match turn.action with
  | .nothing | .setMainPower _ | .accessory _ _ | .createNewTask _ false => pure ()
  | .noValidLoco _ | .zeroAddress => pure ()
  | .createNewTask _ true => do
    let _ ← readThis this  -- mostRecentCab
    pure ()
  | .heartBeatEnable on => writeThis this fun o => { o with heartBeatEnable := on }
  | .heartbeat | .sendIntro => writeThis this fun o => { o with sent := (act o.sent turn.action).1 }
  | .driveAway throttleChar =>
    modify fun s => { s with stashInstance := some this, stashThrottleChar := throttleChar }
  | .addLoco throttleChar lengthChar locoid =>
    if throttleOf lengthChar ≠ lorS locoid ∨ turn.answers.slot = false then pure ()
    else writeThis this fun o => { o with
      locos := (o.locos.add (throttleOf throttleChar) (throttleOf lengthChar) locoid turn.answers).1 }
  | .removeLocos throttleChar locoid =>
    writeThis this fun o => { o with locos := o.locos.remove (throttleOf throttleChar) locoid }
  | .locos throttleChar cab action => do
    writeThis this fun o => { o with locos := o.locos.locoAction (throttleOf throttleChar) cab action }
    markEach turn.marked
  | .quit => delete this

def takeEach (this : Nat) : List Turn → Clients Unit
  | [] => pure ()
  | turn :: turns => do
    take this turn
    takeEach this turns

/-- `WiThrottle::parse` -/
def parseTurns (this : Nat) (turns : List Turn) (now : UInt32) : Clients Unit := do
  writeThis this fun o => { o with heartBeat := now, sent := (metadata o.sent).1 }
  takeEach this turns

/-- The actions of the lines of a buffer. -/
def readActions (platform : Platform) (exrail : Bool) : Nat → List UInt8 → Option (List Action)
  | 0, _ => none
  | fuel + 1, cmd =>
    if cmd.head? = some 0 then some []
    else
      (readLine platform exrail cmd).bind fun action =>
        (readActions platform exrail fuel (skipLine cmd)).map (action :: ·)

/-- A buffer, with the turns of the line loop. -/
structure Received (platform : Platform) (exrail : Bool) where
  buffer : List UInt8
  turns : List Turn
  reads : readActions platform exrail buffer.length buffer = some (turns.map Turn.action)

/-! ## Heartbeats -/

/-- `ESTOP_SECONDS*1000` -/
def estopMillis : UInt32 := 20000

def Throttle.timedOut (o : Throttle) (now : UInt32) : Bool :=
  o.heartBeatEnable && decide (estopMillis < now - o.heartBeat)

/-- `WiThrottle::checkHeartbeat`, with the locos for which the emergency stop has a broadcast. -/
def checkHeartbeat (now : UInt32) (marked : List Int) (functionMap : Int → UInt32) (this : Nat) :
    Clients Unit := do
  let o ← readThis this
  if o.timedOut now then
    markEach marked
    writeThis this fun o =>
      if o.locos.myLocos.any fun loco => !loco.isFree then { o with heartBeat := now } else o
    delete this
  else writeThis this fun o => { o with locos := o.locos.report functionMap }

/-! ## Calls -/

inductive Call (platform : Platform) (exrail : Bool) where
  | parse (clientId : UInt8) (received : Received platform exrail) (now : UInt32) (memory : Memory)
  | forget (clientId : UInt8)
  | loop (now : UInt32) (marked : Nat → List Int) (functionMap : Int → UInt32)
  | getLocoCallback (locoid : Int16) (answers : Answers) (marked : List Int)
  | markForBroadcast (cab : Int)

variable {platform : Platform} {exrail : Bool}

/-- What the callback lets the stashed instance do. -/
def callbackTurn (platform : Platform) (s : Throttles) (locoid : Int16) (answers : Answers)
    (marked : List Int) : Turn :=
  ⟨WiThrottle.getLocoCallback platform s.stashThrottleChar locoid, answers, marked⟩

def Call.exec : Call platform exrail → Clients Unit
  | .parse clientId received now memory => do
    let this ← getThrottle clientId memory
    parseTurns this received.turns now
  | .forget clientId => WiThrottle.forget clientId
  | .loop now marked functionMap =>
    forThrottles fun wt => checkHeartbeat now (marked wt) functionMap wt
  | .getLocoCallback locoid answers marked => do
    let s ← get
    match s.stashInstance with
    | none => pure ()  -- nobody has asked for the callback
    | some this => take this (callbackTurn platform s locoid answers marked)
  | .markForBroadcast cab => WiThrottle.markForBroadcast cab

def Throttles.start : Throttles where
  mem := fun _ => ⟨none, 0, false, 0, .fresh, WiThrottle.new⟩
  live := fun _ => false
  created := 0
  firstThrottle := none
  stashInstance := none
  stashThrottleChar := 0

/-! ## The list -/

/-- The `nextThrottle` fields. -/
def Throttles.nextOf (s : Throttles) (this : Nat) : Option Nat := (s.mem this).nextThrottle

/-- The list has the objects `xs`, and these are the ones that are not deleted. -/
structure Listed (s : Throttles) (xs : List Nat) : Prop where
  links : Links s.nextOf s.firstThrottle xs
  nodup : xs.Nodup
  live : ∀ this, s.live this = true ↔ this ∈ xs
  fresh : ∀ this ∈ xs, this < s.created

def Throttles.Inv (s : Throttles) : Prop := ∃ xs, Listed s xs

/-- The states differ at most in what is noted of the clients. -/
structure SameList (s s' : Throttles) : Prop where
  next : s'.nextOf = s.nextOf
  live : s'.live = s.live
  created : s'.created = s.created
  first : s'.firstThrottle = s.firstThrottle

section List

variable {F : Misuse → Prop} {s s' : Throttles} {xs : List Nat} {this : Nat}

theorem SameList.refl (s : Throttles) : SameList s s := ⟨rfl, rfl, rfl, rfl⟩

theorem SameList.trans {s'' : Throttles} (h : SameList s s') (h' : SameList s' s'') : SameList s s'' :=
  ⟨h'.next.trans h.next, h'.live.trans h.live, h'.created.trans h.created, h'.first.trans h.first⟩

theorem SameList.listed (h : SameList s s') (hs : Listed s xs) : Listed s' xs := by
  refine ⟨?_, hs.nodup, ?_, ?_⟩
  · rw [h.next, h.first]
    exact hs.links
  · rw [h.live]
    exact hs.live
  · rw [h.created]
    exact hs.fresh

theorem SameList.inv (h : SameList s s') (hs : s.Inv) : s'.Inv := hs.imp fun _ hxs => h.listed hxs

theorem nextOf_write (this : Nat) (o : Throttle) :
    (s.write this o).nextOf = Function.update s.nextOf this o.nextThrottle := by
  funext i
  by_cases hi : i = this
  · simp [Throttles.nextOf, Throttles.write, hi]
  · simp [Throttles.nextOf, Throttles.write, hi]

theorem sameList_write {o : Throttle} (h : o.nextThrottle = (s.mem this).nextThrottle) :
    SameList s (s.write this o) := by
  refine ⟨?_, rfl, rfl, rfl⟩
  rw [nextOf_write, h]
  exact Function.update_eq_self this s.nextOf

theorem wp_readThis (h : s.live this = true) {Q : Throttle → Throttles → Prop} :
    wp F (readThis this) Q s ↔ Q (s.mem this) s := by
  simp [readThis, h]

theorem wp_readThis_deleted (h : s.live this = false) {Q : Throttle → Throttles → Prop} :
    wp F (readThis this) Q s ↔ F (.deleted this) := by
  simp [readThis, h]

theorem wp_writeThis (h : s.live this = true) {f : Throttle → Throttle} {Q : Unit → Throttles → Prop} :
    wp F (writeThis this f) Q s ↔ Q () (s.write this (f (s.mem this))) := by
  simp [writeThis, h]

theorem wp_writeThis_deleted (h : s.live this = false) {f : Throttle → Throttle}
    {Q : Unit → Throttles → Prop} : wp F (writeThis this f) Q s ↔ F (.deleted this) := by
  simp [writeThis, h]

theorem sameList_writeThis (h : s.live this = true) {f : Throttle → Throttle}
    (hf : ∀ o, (f o).nextThrottle = o.nextThrottle) :
    wp F (writeThis this f) (fun _ s' => SameList s s') s := by
  rw [wp_writeThis h]
  exact sameList_write (hf _)

theorem Listed.length_le (h : Listed s xs) : xs.length ≤ s.created :=
  length_le_of_nodup_of_lt h.nodup h.fresh

/-- The walk finds an object with `p`, if there is one. -/
theorem wp_findThrottle (h : Listed s xs) (p : Throttle → Bool) {Q : Option Nat → Throttles → Prop}
    (hsome : ∀ wt ∈ xs, p (s.mem wt) = true → Q (some wt) s)
    (hnone : (∀ wt ∈ xs, p (s.mem wt) = false) → Q none s) : wp F (findThrottle p) Q s := by
  unfold findThrottle
  simp only [wp_bind, wp_get]
  -- the objects that the walk has passed are not the ones it looks for
  refine wp_loop (fun ys q b s' => s' = s ∧
    ((b = none ∧ Links s.nextOf q ys ∧ ∃ passed, xs = passed ++ ys ∧
        ∀ wt ∈ passed, p (s.mem wt) = false) ∨
      (q = none ∧ ∃ wt ∈ xs, p (s.mem wt) = true ∧ b = some wt))) ?_ ?_ h.length_le
    ⟨rfl, .inl ⟨rfl, h.links, [], rfl, nofun⟩⟩
  · rintro ys wt b s' ⟨rfl, ⟨rfl, hlinks, passed, hxs, hpassed⟩ | ⟨hq, -⟩⟩
    · cases ys with
      | nil => cases hlinks
      | cons first ys =>
        obtain ⟨hfirst, hrest⟩ := links_cons.mp hlinks
        cases hfirst
        have hmem : wt ∈ xs := by
          rw [hxs]
          exact List.mem_append_right _ List.mem_cons_self
        refine ⟨ys, rfl, ?_⟩
        rw [wp_bind, wp_readThis ((h.live wt).mpr hmem), wp_pure]
        cases hp : p (s'.mem wt) with
        | true => exact ⟨rfl, .inr ⟨rfl, wt, hmem, hp, rfl⟩⟩
        | false =>
          refine ⟨rfl, .inl ⟨rfl, hrest, passed ++ [wt], ?_, ?_⟩⟩
          · rw [hxs, List.append_assoc, List.singleton_append]
          · intro wt' hwt'
            rcases List.mem_append.mp hwt' with hold | hnew
            · exact hpassed wt' hold
            · rw [List.mem_singleton.mp hnew]
              exact hp
    · cases hq
  · rintro ys b s' ⟨rfl, ⟨rfl, hlinks, passed, hxs, hpassed⟩ | ⟨-, wt, hmem, hp, rfl⟩⟩
    · cases ys with
      | nil =>
        rw [List.append_nil] at hxs
        exact hnone (hxs ▸ hpassed)
      | cons first ys => cases (links_cons.mp hlinks).1
    · exact hsome wt hmem hp

/-- A walk over all objects that keeps the list. -/
theorem wp_forThrottles (h : Listed s xs) {body : Nat → Clients Unit} (I : Throttles → Prop)
    (hI : ∀ s', I s' → SameList s s')
    (hbody : ∀ wt ∈ xs, ∀ s', I s' → wp F (body wt) (fun _ => I) s') (hs : I s) :
    wp F (forThrottles body) (fun _ => I) s := by
  unfold forThrottles
  simp only [wp_bind, wp_get]
  refine wp_loop (fun ys q _ s' => I s' ∧ Links s.nextOf q ys ∧ ys ⊆ xs) ?_ ?_ h.length_le
    ⟨hs, h.links, List.Subset.refl xs⟩
  · rintro ys wt b s' ⟨hs', hlinks, hsub⟩
    cases ys with
    | nil => cases hlinks
    | cons first ys =>
      obtain ⟨hfirst, hrest⟩ := links_cons.mp hlinks
      cases hfirst
      obtain ⟨hmem, hsub⟩ := List.cons_subset.mp hsub
      refine ⟨ys, rfl, ?_⟩
      rw [wp_bind]
      refine wp_mono (hbody wt hmem s' hs') fun _ s'' hs'' => ?_
      have hsame := hI s'' hs''
      have hlive : s''.live wt = true := by
        rw [hsame.live]
        exact (h.live wt).mpr hmem
      rw [wp_bind, wp_readThis hlive, wp_pure]
      refine ⟨hs'', ?_, hsub⟩
      show Links s.nextOf (s''.nextOf wt) ys
      rw [hsame.next]
      exact hrest
  · exact fun ys _ s' hs' => hs'.1

theorem wp_markForBroadcast (h : Listed s xs) (cab : Int) :
    wp F (markForBroadcast cab) (fun _ s' => SameList s s') s := by
  refine wp_forThrottles h (SameList s) (fun _ hs' => hs') (fun wt hwt s' hs' => ?_) (.refl s)
  have hlive : s'.live wt = true := ((hs'.listed h).live wt).mpr hwt
  exact wp_mono (sameList_writeThis hlive fun _ => rfl) fun _ _ hs'' => hs'.trans hs''

theorem wp_markEach (h : Listed s xs) (cabs : List Int) :
    wp F (markEach cabs) (fun _ s' => SameList s s') s := by
  induction cabs generalizing s with
  | nil => exact .refl s
  | cons cab cabs ih =>
    rw [markEach, wp_bind]
    refine wp_mono (wp_markForBroadcast h cab) fun _ s' hs' => ?_
    exact wp_mono (ih (hs'.listed h)) fun _ s'' hs'' => hs'.trans hs''

/-- A new object is the first of the list. -/
theorem wp_create (h : Listed s xs) (wificlientid : UInt8) (memory : Memory) :
    wp F (create wificlientid memory) (fun this s' => s'.Inv ∧ s'.live this = true) s := by
  have hnew : s.created ∉ xs := fun hmem => Nat.lt_irrefl _ (h.fresh _ hmem)
  unfold create
  simp only [wp_bind, wp_get, wp_set, wp_pure]
  refine ⟨⟨s.created :: xs, ?_, List.nodup_cons.mpr ⟨hnew, h.nodup⟩, ?_, ?_⟩, Function.update_self ..⟩
  · refine links_cons.mpr ⟨rfl, ?_⟩
    show Links (s.write s.created _).nextOf ((s.write s.created _).nextOf s.created) xs
    rw [nextOf_write, Function.update_self]
    exact h.links.update hnew
  · intro this
    by_cases hthis : this = s.created
    · simp [hthis]
    · simp [hthis, h.live]
  · intro this hthis
    rcases List.mem_cons.mp hthis with rfl | hold
    · exact Nat.lt_succ_self _
    · exact Nat.lt_succ_of_lt (h.fresh this hold)

theorem wp_getThrottle (h : s.Inv) (wifiClient : UInt8) (memory : Memory) :
    wp F (getThrottle wifiClient memory) (fun this s' => s'.Inv ∧ s'.live this = true) s := by
  obtain ⟨xs, hxs⟩ := h
  rw [getThrottle, wp_bind]
  apply wp_findThrottle hxs
  · intro wt hwt _
    exact ⟨⟨xs, hxs⟩, (hxs.live wt).mpr hwt⟩
  · intro _
    exact wp_create hxs wifiClient memory

/-- An object is not there any more, neither on the list nor in the memory. -/
theorem Listed.freed {before after : List Nat} (h : Listed s (before ++ this :: after))
    (hlinks : Links s'.nextOf s'.firstThrottle (before ++ after)) (hcreated : s'.created = s.created)
    (hlive : s'.live = Function.update s.live this false) : s'.Inv := by
  have hsub : before ++ after ⊆ before ++ this :: after := by
    intro i hi
    rw [List.mem_append] at hi ⊢
    exact hi.imp_right (List.mem_cons_of_mem this)
  have hnd := List.nodup_middle.mp h.nodup
  refine ⟨before ++ after, hlinks, (List.nodup_cons.mp hnd).2, fun i => ?_, fun i hi => ?_⟩
  · rw [hlive]
    by_cases hi : i = this
    · rw [hi, Function.update_self]
      exact iff_of_false Bool.false_ne_true (List.nodup_cons.mp hnd).1
    · rw [Function.update_of_ne hi, h.live]
      simp [hi]
  · rw [hcreated]
    exact h.fresh i (hsub hi)

/-- The destructor takes the object off the list. -/
theorem wp_delete (h : Listed s xs) (hthis : this ∈ xs) :
    wp F (delete this) (fun _ s' => s'.Inv ∧ s'.live this = false) s := by
  unfold delete
  rw [wp_bind, wp_readThis ((h.live this).mpr hthis)]
  simp only [wp_bind, wp_get]
  refine wp_ite (fun hfirst => ?_) fun hfirst => ?_
  · have hhead := h.links.head
    cases xs with
    | nil => cases hthis
    | cons first xs =>
      rw [hfirst, List.head?_cons] at hhead
      cases hhead
      simp only [wp_bind, wp_set, wp_modify]
      have hlisted : Listed s ([] ++ this :: xs) := h
      refine ⟨hlisted.freed ?_ rfl rfl, Function.update_self ..⟩
      exact (links_cons.mp h.links).2
  · rw [wp_bind]
    apply wp_findThrottle h
    · intro wt hwt hnext
      have hnext : s.nextOf wt = some this := beq_iff_eq.mp hnext
      obtain ⟨before, after, rfl⟩ := List.append_of_mem hwt
      have hafter := (Links.of_append h.links).2
      rw [hnext] at hafter
      cases after with
      | nil => cases hafter
      | cons second after =>
        obtain ⟨hsecond, -⟩ := links_cons.mp hafter
        cases hsecond
        dsimp only
        rw [wp_bind, wp_writeThis ((h.live wt).mpr hwt), wp_modify]
        have hsplit : before ++ wt :: this :: after = (before ++ [wt]) ++ this :: after := by simp
        have hlisted : Listed s ((before ++ [wt]) ++ this :: after) := hsplit ▸ h
        refine ⟨hlisted.freed ?_ rfl rfl, Function.update_self ..⟩
        show Links (s.write wt _).nextOf s.firstThrottle (before ++ [wt] ++ after)
        rw [nextOf_write, List.append_assoc, List.singleton_append]
        refine h.links.remove (Function.update_self ..) fun c hc => Function.update_of_ne ?_ ..
        rintro rfl
        have hnd := h.nodup
        rw [List.nodup_middle, List.nodup_cons] at hnd
        apply hnd.1
        rw [List.mem_append] at hc ⊢
        exact hc.imp_right (List.mem_cons_of_mem this)
    · intro hnone
      obtain ⟨wt, hwt, hnext⟩ := h.links.exists_prev hthis hfirst
      have hfound := hnone wt hwt
      rw [beq_eq_false_iff_ne] at hfound
      exact absurd hnext hfound

end List

end CommandStation.WiThrottle
