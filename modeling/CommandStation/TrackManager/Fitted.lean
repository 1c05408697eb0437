import CommandStation.TrackManager.Basic

/-!
# Shields with tracks missing

The table `track` has `MAX_TRACKS` entries, and those that no motor driver was given for are null. The
loops over the tracks go up to the last entry that is not. A program here reads the entries as the
source does: a read through one that is null is a fault. The drivers are those of the station.

`lastTrack` is what the calls of `addTrack` leave. `isProgTrack`, the texts of the broadcasts and the
pins are not in the model.
-/

namespace CommandStation

open CommandStation.Lib

/-- A motor shield: the driver that each entry points to. -/
structure Shield where
  track : Nat → Option Nat
  isPWMCapable : Nat → Bool
  disableProg : Bool
  small : ∀ t d, track t = some d → t < 8
  distinct : ∀ t u d, track t = some d → track u = some d → t = u

/-- The read went through a null entry, or `DCC` had a fault of its own. -/
inductive ShieldFault where
  | absent (t : Nat)
  | dcc (fault : Fault)
  deriving DecidableEq, Repr

/-- The station with what the High Accuracy waveform needs of the drivers. -/
structure FittedStation where
  joins : JoinStation
  trackPWM : Nat → Bool
  railcomPossible : Bool

abbrev Fit (α : Type) : Type := Prog FittedStation ShieldFault α

namespace Shield

variable (shield : Shield)

/-- `lastTrack + 1` after the first `n` calls of `addTrack`. -/
def added : Nat → Nat
  | 0 => 0
  | t + 1 => if (shield.track t).isSome then t + 1 else added t

/-- `TrackManager::numTracks` after `Setup`. -/
def numTracks : Nat := shield.added 8

/-- No entry in front of the last track is null. -/
def Filled : Prop := ∀ t, t < shield.numTracks → ∃ d, shield.track t = some d

end Shield

namespace FittedStation

/-- A program of the station without its shield. -/
def onJoins {α : Type} (m : Joins α) : Fit α := fun s =>
  match m s.joins with
  | .ok (a, joins) => .ok (a, { s with joins := joins })
  | .error fault => .error (.dcc fault)

def onStation {α : Type} (m : Dcc α) : Fit α := onJoins (JoinStation.onStation m)

/-- The driver with this number. -/
def driver (s : FittedStation) (d : Nat) : MotorDriver :=
  (s.joins.station.tracks[d]?).getD (MotorDriver.new .unused)

variable (shield : Shield)

/-- `track[t]->` -/
def entry (t : Nat) : Fit Nat :=
  match shield.track t with
  | none => throw (.absent t)
  | some d => pure d

/-- `FOR_EACH_TRACK(t)` for a body that begins with a read of the track. -/
def forEachTrack (body : Nat → Nat → Fit Unit) : Fit Unit :=
  runProg (fun t => entry shield t >>= body t) (List.range shield.numTracks)

/-- A loop over the tracks that ends at the first one whose driver meets the test. -/
def findTrack (test : Nat → MotorDriver → Bool) : List Nat → Fit (Option Nat)
  | [] => pure none
  | t :: ts => do
    let d ← entry shield t
    let s ← get
    if test t (s.driver d) then pure (some t) else findTrack test ts

/-- `CommandDistributor::broadcastPower`: `isActive` reads the mode of every track. -/
def broadcastPower : Fit Unit := forEachTrack shield fun _ _ => pure ()

/-- `TrackManager::streamTrackState`; to a stream, or as a broadcast. -/
def streamTrackState (toStream : Bool) (t : Nat) : Fit Unit :=
  if shield.track t = none then pure ()
  else when (toStream = false) (broadcastPower shield)

/-- Only one track may be prog: the body of that loop of `setTrackMode`. -/
def revokeProg (trackToSet t d : Nat) : Fit Unit := do
  let s ← get
  when (TrackMode.has (s.driver d).trackMode TrackMode.prog ∧ t ≠ trackToSet) do
    onStation (TrackManager.setTrack d fun driver =>
      { driver with powerMode := .off, trackMode := TrackMode.none })
    streamTrackState shield false t

/-- The search for another track of the same cab, which the ESP32 takes the channel of. -/
def copyChannel (trackToSet : Nat) (dcAddr : Int16) : Fit Unit := do
  let _ ← findTrack shield (fun t driver =>
    t ≠ trackToSet && driver.isDC && driver.dcAddr == dcAddr) (List.range shield.numTracks)

def setTrackPWM (d : Nat) (on : Bool) : Fit Unit :=
  modify fun s => { s with trackPWM := Function.update s.trackPWM d on }

/-- The first loop that re-evaluates the High Accuracy mode, with `canDo` up to now. -/
def evaluateHA : List Nat → Bool → Fit Bool
  | [], canDo => pure canDo
  | t :: ts, canDo => do
    let d ← entry shield t
    let s ← get
    if (s.driver d).isDC then
      if shield.isPWMCapable d then pure false  -- so abort and prevent globally below
      else
        setTrackPWM d false
        evaluateHA ts canDo
    else if TrackMode.has (s.driver d).trackMode (TrackMode.main ||| TrackMode.prog) then
      setTrackPWM d (shield.isPWMCapable d)
      evaluateHA ts (canDo && shield.isPWMCapable d)
    else evaluateHA ts canDo

/-- We can only do High Accuracy if all main and prog tracks agree. -/
def reevaluateHA : Fit Unit := do
  let canDo ← evaluateHA shield (List.range shield.numTracks) true
  when (canDo = false) (forEachTrack shield fun _ d => setTrackPWM d false)
  modify fun s => { s with railcomPossible := canDo }

/-- `DCCWaveform::begin` of the ESP32: the main drivers, then the prog driver. -/
def beginWaveform : Fit Unit := do
  forEachTrack shield fun _ _ => pure ()
  let _ ← findTrack shield (fun _ driver => TrackMode.has driver.trackMode TrackMode.prog)
    (List.range shield.numTracks)

def renewWaveform (platform : Platform) : Fit Unit :=
  if platform = .esp32 then beginWaveform shield else reevaluateHA shield

/-- The mode is DC, which needs a driver that can set brake. -/
def Refused (platform : Platform) (driver : MotorDriver) (mode : UInt8) : Prop :=
  TrackMode.has mode TrackMode.dc ∧ (platform = .uno ∨ driver.brakeCanPWM = false)

instance (platform : Platform) (driver : MotorDriver) (mode : UInt8) :
    Decidable (Refused platform driver mode) :=
  inferInstanceAs (Decidable (_ ∧ (_ ∨ _)))

/-- The part of `setTrackMode` after its checks, for the track with driver `d`. -/
def changeMode (trackToSet d : Nat) (mode : UInt8) (dcAddr : Int16) (offAtChange : Bool) : Fit Unit := do
  let s ← get
  let platform := s.joins.station.platform
  let old := s.driver d
  when (TrackMode.has mode TrackMode.prog ∧ shield.disableProg = false)
    (forEachTrack shield (revokeProg shield trackToSet))
  when (platform = .esp32 ∧ TrackMode.has mode TrackMode.dc ∧ old.dcAddr ≠ dcAddr)
    (copyChannel shield trackToSet dcAddr)
  onStation (TrackManager.clearPrevious d old.dcAddr mode dcAddr)
  onStation (TrackManager.setTrack d fun driver => { driver with trackMode := mode })
  renewWaveform shield platform
  when (TrackMode.has mode TrackMode.dc) (onStation (TrackManager.applyDCSpeed d dcAddr))
  -- If we just take away the prog track, the join should not be active either.
  when (platform = .esp32 ∧ shield.disableProg = false ∧ s.joins.tempProgTrack = some trackToSet ∧
      TrackMode.has old.trackMode TrackMode.main = true ∧ TrackMode.has mode TrackMode.prog = false)
    (onJoins (modify fun s => { s with tempProgTrack := none, progTrackSyncMain := false }))
  when (mode ≠ old.trackMode ∧ offAtChange = true)
    (onStation (TrackManager.setTrack d fun driver => { driver with powerMode := .off }))
  streamTrackState shield false trackToSet

/-- `TrackManager::setTrackMode` -/
def setTrackMode (trackToSet : Nat) (mode : UInt8) (dcAddr : Int16) (offAtChange : Bool) : Fit Bool := do
  let s ← get
  if shield.numTracks ≤ trackToSet then pure false
  else match shield.track trackToSet with
    | none => pure false
    | some d =>
      if Refused s.joins.station.platform (s.driver d) mode then pure false
      else
        changeMode shield trackToSet d mode dcAddr offAtChange
        pure true

/-! ## The command `<=>` -/

/-- The mode that a keyword stands for in `<= id mode>`. -/
def modeOf (boosts disableProg : Bool) (keyword : Int16) : Option UInt8 :=
  if keyword = hk "MAIN" then some TrackMode.main
  else if keyword = hk "MAIN_INV" then some (TrackMode.main ||| TrackMode.modifierInv)
  else if keyword = hk "MAIN_AUTO" then some (TrackMode.main ||| TrackMode.modifierAuto)
  else if disableProg = false ∧ keyword = hk "PROG" then some TrackMode.prog
  else if keyword = hk "OFF" ∨ keyword = hk "NONE" then some TrackMode.none
  else if keyword = hk "EXT" then some TrackMode.ext
  else if boosts = true ∧ keyword = hk "BOOST" then some TrackMode.boost
  else if boosts = true ∧ keyword = hk "BOOST_INV" then some (TrackMode.boost ||| TrackMode.modifierInv)
  else if boosts = true ∧ keyword = hk "BOOST_AUTO" then some (TrackMode.boost ||| TrackMode.modifierAuto)
  else none

/-- What a keyword adds to the mode the track has. -/
def modifierOf (keyword : Int16) : Option UInt8 :=
  if keyword = hk "AUTO" then some TrackMode.modifierAuto
  else if keyword = hk "INV" then some TrackMode.modifierInv
  else none

/-- The mode that a keyword stands for in `<= id mode cab>`. -/
def modeOfCab (keyword cab : Int16) : Option UInt8 :=
  if keyword = hk "DC" ∧ 0 < cab then some TrackMode.dc
  else if (keyword = hk "DC_INV" ∨ keyword = hk "DCX") ∧ 0 < cab then
    some (TrackMode.dc ||| TrackMode.modifierInv)
  else none

/-- The modes of a booster are in the build. -/
def boosts (s : FittedStation) : Bool := s.joins.boosterInput && s.joins.station.platform == .esp32

/-- `<= id mode>` -/
def parseMode (t : Nat) (keyword : Int16) : Fit Bool := do
  let s ← get
  match modeOf s.boosts shield.disableProg keyword with
  | some mode => setTrackMode shield t mode 0 true
  | none =>
    match modifierOf keyword with
    | some modifier =>
      let d ← entry shield t
      setTrackMode shield t ((s.driver d).trackMode ||| modifier) 0 true
    | none => pure false

/-- What the keywords after the letter of a track ask for. -/
def parseAssignment (t : Nat) : List Int16 → Fit Bool
  | [keyword] => parseMode shield t keyword
  | [keyword, cab] =>
    match modeOfCab keyword cab with
    | some mode => setTrackMode shield t mode cab true
    | none => pure false
  | _ => pure false

/-- `TrackManager::parseEqualSign` -/
def parseEqualSign : List Int16 → Fit Bool
  | [] => do
    runProg (streamTrackState shield true) (List.range shield.numTracks)
    pure true
  | letter :: p =>
    let t := letter - hk "A"  -- convert A... to 0....
    if p ≠ [] ∧ (t < 0 ∨ JoinStation.maxTracks ≤ t) then pure false
    else parseAssignment shield t.toInt.toNat p

/-! ## The loops read every entry -/

section

variable {shield : Shield} {s : FittedStation}

/-- A null entry in front of the last track was read. -/
def Missing (shield : Shield) (e : ShieldFault) : Prop :=
  ∃ t, t < shield.numTracks ∧ shield.track t = none ∧ e = .absent t

theorem lt_added {t n d : Nat} (ht : t < n) (h : shield.track t = some d) : t < shield.added n := by
  induction n with
  | zero => exact absurd ht (Nat.not_lt_zero t)
  | succ n ih =>
    rw [Shield.added]
    split
    · exact ht
    · next hnone =>
      obtain hlt | rfl := Nat.lt_succ_iff_lt_or_eq.mp ht
      · exact ih hlt
      · rw [h] at hnone
        exact absurd rfl hnone

theorem lt_numTracks {t d : Nat} (h : shield.track t = some d) : t < shield.numTracks :=
  lt_added (shield.small t d h) h

theorem wp_onJoins {α : Type} {F : ShieldFault → Prop} {m : Joins α} {Q : α → FittedStation → Prop} :
    wp F (onJoins m) Q s =
      wp (fun fault => F (.dcc fault)) m (fun a joins => Q a { s with joins := joins }) s.joins := by
  unfold wp onJoins
  cases m s.joins <;> rfl

/-- A program of the station that has no fault. -/
theorem wp_onStation {α : Type} {F : ShieldFault → Prop} {m : Dcc α}
    (h : ∀ station, wp (fun _ => False) m (fun _ _ => True) station) :
    wp F (onStation m) (fun _ _ => True) s := by
  rw [onStation, wp_onJoins, JoinStation.onStation, wp_zoom]
  exact wp_mono_fault (fun _ => False.elim) (h s.joins.station)

theorem wp_entry (t : Nat) (ht : t < shield.numTracks) :
    wp (Missing shield) (entry shield t) (fun d s' => s' = s ∧ shield.track t = some d) s := by
  unfold entry
  cases h : shield.track t with
  | none => exact ⟨t, ht, h, rfl⟩
  | some d => exact ⟨rfl, rfl⟩

/-- A loop over some of the tracks that was not left has found each of them. -/
theorem wp_runTracks {body : Nat → Nat → Fit Unit}
    (hbody : ∀ t d s, wp (Missing shield) (body t d) (fun _ _ => True) s) (ts : List Nat)
    (hts : ∀ t ∈ ts, t < shield.numTracks) :
    wp (Missing shield) (runProg (fun t => entry shield t >>= body t) ts)
      (fun _ _ => ∀ t ∈ ts, ∃ d, shield.track t = some d) s := by
  induction ts generalizing s with
  | nil => exact fun t ht => absurd ht List.not_mem_nil
  | cons t ts ih =>
    simp only [runProg, wp_bind]
    refine wp_mono (wp_entry t (hts t List.mem_cons_self)) ?_
    rintro d s' ⟨rfl, hd⟩
    refine wp_mono (hbody t d s') fun _ s'' _ => ?_
    refine wp_mono (ih fun u hu => hts u (List.mem_cons_of_mem t hu)) fun _ _ hrest u hu => ?_
    rcases List.mem_cons.mp hu with rfl | hu
    · exact ⟨d, hd⟩
    · exact hrest u hu

theorem wp_forEachTrack {body : Nat → Nat → Fit Unit}
    (hbody : ∀ t d s, wp (Missing shield) (body t d) (fun _ _ => True) s) :
    wp (Missing shield) (forEachTrack shield body) (fun _ _ => shield.Filled) s := by
  have hts : ∀ t ∈ List.range shield.numTracks, t < shield.numTracks := fun t => List.mem_range.mp
  refine wp_mono (wp_runTracks hbody _ hts) ?_
  exact fun _ _ h t ht => h t (List.mem_range.mpr ht)

theorem wp_broadcastPower : wp (Missing shield) (broadcastPower shield) (fun _ _ => shield.Filled) s :=
  wp_forEachTrack fun _ _ _ => trivial

theorem wp_streamTrackState (toStream : Bool) (t : Nat) :
    wp (Missing shield) (streamTrackState shield toStream t) (fun _ _ => True) s := by
  unfold streamTrackState
  apply wp_ite
  · exact fun _ => trivial
  · intro _
    apply wp_when
    · exact fun _ => wp_mono wp_broadcastPower fun _ _ _ => trivial
    · exact fun _ => trivial

theorem wp_revokeProg (trackToSet t d : Nat) :
    wp (Missing shield) (revokeProg shield trackToSet t d) (fun _ _ => True) s := by
  unfold revokeProg
  rw [wp_bind, wp_get]
  apply wp_when
  · intro _
    rw [wp_bind]
    refine wp_mono (wp_onStation fun _ => trivial) fun _ s' _ => ?_
    exact wp_streamTrackState false t
  · exact fun _ => trivial

theorem wp_findTrack (test : Nat → MotorDriver → Bool) (ts : List Nat)
    (hts : ∀ t ∈ ts, t < shield.numTracks) :
    wp (Missing shield) (findTrack shield test ts) (fun _ _ => True) s := by
  induction ts generalizing s with
  | nil => trivial
  | cons t ts ih =>
    simp only [findTrack, wp_bind, wp_get]
    refine wp_mono (wp_entry t (hts t List.mem_cons_self)) ?_
    rintro d s' -
    apply wp_ite
    · exact fun _ => trivial
    · exact fun _ => ih fun u hu => hts u (List.mem_cons_of_mem t hu)

/-- A first loop that was not aborted has found each track. -/
theorem wp_evaluateHA (ts : List Nat) (canDo : Bool) (hts : ∀ t ∈ ts, t < shield.numTracks) :
    wp (Missing shield) (evaluateHA shield ts canDo)
      (fun canDo' _ => canDo' = true → ∀ t ∈ ts, ∃ d, shield.track t = some d) s := by
  induction ts generalizing s canDo with
  | nil => exact fun _ t ht => absurd ht List.not_mem_nil
  | cons t ts ih =>
    have hrest : ∀ canDo s, wp (Missing shield) (evaluateHA shield ts canDo)
        (fun canDo' _ => canDo' = true → ∀ t ∈ ts, ∃ d, shield.track t = some d) s :=
      fun canDo s => ih canDo fun u hu => hts u (List.mem_cons_of_mem t hu)
    simp only [evaluateHA, wp_bind, wp_get]
    refine wp_mono (wp_entry t (hts t List.mem_cons_self)) ?_
    rintro d s' ⟨rfl, hd⟩
    have hboth : ∀ canDo s, wp (Missing shield) (evaluateHA shield ts canDo)
        (fun canDo' _ => canDo' = true → ∀ u ∈ t :: ts, ∃ d, shield.track u = some d) s := by
      refine fun canDo s => wp_mono (hrest canDo s) fun canDo' _ h hcan u hu => ?_
      rcases List.mem_cons.mp hu with rfl | hu
      · exact ⟨d, hd⟩
      · exact h hcan u hu
    split
    · split
      · exact fun hcan => absurd hcan Bool.false_ne_true
      · exact hboth _ _
    · split
      · exact hboth _ _
      · exact hboth _ _

theorem wp_reevaluateHA : wp (Missing shield) (reevaluateHA shield) (fun _ _ => shield.Filled) s := by
  have hts : ∀ t ∈ List.range shield.numTracks, t < shield.numTracks := fun t => List.mem_range.mp
  simp only [reevaluateHA, wp_bind]
  refine wp_mono (wp_evaluateHA _ true hts) fun canDo s' hcan => ?_
  apply wp_when
  · -- the second loop reads them all
    intro _
    refine wp_mono (wp_forEachTrack fun _ _ _ => trivial) ?_
    exact fun _ _ hfilled => hfilled
  · intro hnot t ht
    exact hcan (eq_true_of_ne_false hnot) t (List.mem_range.mpr ht)

theorem wp_beginWaveform : wp (Missing shield) (beginWaveform shield) (fun _ _ => shield.Filled) s := by
  simp only [beginWaveform, wp_bind]
  refine wp_mono (wp_forEachTrack fun _ _ _ => trivial) fun _ s' hfilled => ?_
  refine wp_mono (wp_findTrack _ _ fun t => List.mem_range.mp) ?_
  exact fun _ _ _ => hfilled

theorem wp_renewWaveform (platform : Platform) :
    wp (Missing shield) (renewWaveform shield platform) (fun _ _ => shield.Filled) s :=
  wp_ite (fun _ => wp_beginWaveform) fun _ => wp_reevaluateHA

/-- What `setTrackMode` clears of the old mode is never on a track that is not fitted. -/
theorem wp_clearPrevious (d : Nat) (oldAddr : Int16) (mode : UInt8) (dcAddr : Int16) (station : Station) :
    wp (fun _ => False) (TrackManager.clearPrevious d oldAddr mode dcAddr) (fun _ _ => True) station := by
  have hdetach : ∀ station, wp (fun _ => False) (TrackManager.detachDCSignal d) (fun _ _ => True) station := by
    intro station
    simp only [TrackManager.detachDCSignal, wp_bind, wp_get]
    cases station.platform <;> trivial
  unfold TrackManager.clearPrevious
  apply wp_ite
  · intro _
    rw [wp_bind]
    apply wp_when
    · exact fun _ => wp_mono (hdetach station) fun _ _ _ => trivial
    · exact fun _ => trivial
  · intro _
    rw [wp_bind]
    exact wp_mono (hdetach station) fun _ _ _ => trivial

/-- **A change of a mode reads every entry.** It comes to its end on a filled shield only, and if
`DCC` had a fault the shield is filled as well. -/
theorem wp_changeMode (trackToSet d : Nat) (mode : UInt8) (dcAddr : Int16) (offAtChange : Bool) :
    wp (fun e => Missing shield e ∨ shield.Filled ∧ ∃ fault, e = .dcc fault)
      (changeMode shield trackToSet d mode dcAddr offAtChange) (fun _ _ => shield.Filled) s := by
  have hmissing : ∀ {α : Type} {m : Fit α} {Q : α → FittedStation → Prop} {s : FittedStation},
      wp (Missing shield) m Q s →
        wp (fun e => Missing shield e ∨ shield.Filled ∧ ∃ fault, e = .dcc fault) m Q s :=
    fun h => wp_mono_fault (fun _ => Or.inl) h
  have hstation : ∀ {m : Dcc Unit} {s : FittedStation}, shield.Filled →
      wp (fun e => Missing shield e ∨ shield.Filled ∧ ∃ fault, e = .dcc fault) (onStation m)
        (fun _ _ => shield.Filled) s := by
    intro m s hfilled
    rw [onStation, wp_onJoins]
    unfold wp
    split
    · exact hfilled
    · exact .inr ⟨hfilled, _, rfl⟩
  have hwhen : ∀ {c : Prop} [Decidable c] {m : Fit Unit} {P : Prop} {s : FittedStation}, P →
      (∀ s, wp (fun e => Missing shield e ∨ shield.Filled ∧ ∃ fault, e = .dcc fault) m (fun _ _ => P) s) →
      wp (fun e => Missing shield e ∨ shield.Filled ∧ ∃ fault, e = .dcc fault) (when c m) (fun _ _ => P) s :=
    fun hP h => wp_when (fun _ => h _) fun _ => hP
  simp only [changeMode, wp_bind, wp_get]
  refine wp_mono (hwhen trivial fun s => ?_) fun _ s₁ _ => ?_
  · have hrevoke : wp (Missing shield) (forEachTrack shield (revokeProg shield trackToSet))
        (fun _ _ => shield.Filled) s := wp_forEachTrack fun t d s => wp_revokeProg trackToSet t d
    exact wp_mono (hmissing hrevoke) fun _ _ _ => trivial
  refine wp_mono (hwhen trivial fun s => ?_) fun _ s₂ _ => ?_
  · rw [copyChannel, wp_bind]
    exact hmissing (wp_findTrack _ _ fun t => List.mem_range.mp)
  refine wp_mono (hmissing (wp_onStation (wp_clearPrevious d _ mode dcAddr))) fun _ s₃ _ => ?_
  refine wp_mono (hmissing (wp_onStation fun _ => trivial)) fun _ s₄ _ => ?_
  -- every entry is read here, the faults of `DCC` come after it
  refine wp_mono (hmissing (wp_renewWaveform _)) fun _ s₅ hfilled => ?_
  refine wp_mono (hwhen hfilled fun s => hstation hfilled) fun _ s₆ _ => ?_
  refine wp_mono (hwhen hfilled fun s => ?_) fun _ s₇ _ => ?_
  · rw [wp_onJoins]
    exact hfilled
  refine wp_mono (hwhen hfilled fun s => hstation hfilled) fun _ s₈ _ => ?_
  exact wp_mono (hmissing (wp_streamTrackState false trackToSet)) fun _ _ _ => hfilled

/-! ## The command -/

/-- Faults of `DCC` apart, the command returns; it returns true only if the track it names is there,
and false only if it has changed nothing. -/
def Safe (shield : Shield) (params : List Int16) (s : FittedStation) : Prop :=
  wp (fun e => ∃ fault, e = .dcc fault) (parseEqualSign shield params) (fun ok s' =>
    if ok then ∀ letter p, params = letter :: p → ∃ d, shield.track (letter - hk "A").toInt.toNat = some d
    else s' = s) s

/-- The mode that the command asks for on the track with driver `d`. -/
def asked (shield : Shield) (s : FittedStation) (d : Nat) : List Int16 → Option UInt8
  | [keyword] =>
    (modeOf s.boosts shield.disableProg keyword).or
      ((modifierOf keyword).map fun modifier => (s.driver d).trackMode ||| modifier)
  | [keyword, cab] => modeOfCab keyword cab
  | _ => none

/-- The letter names an entry of the table. -/
def InTable (letter : Int16) : Prop := 0 ≤ letter - hk "A" ∧ letter - hk "A" < JoinStation.maxTracks

theorem Missing.not_filled {e : ShieldFault} (h : Missing shield e) : ¬ shield.Filled := by
  obtain ⟨t, ht, hnone, -⟩ := h
  intro hfilled
  obtain ⟨d, hd⟩ := hfilled t ht
  rw [hnone] at hd
  cases hd

/-- A change of mode visits every track, so all must be fitted. -/
theorem wp_changeMode_iff {t d : Nat} {mode : UInt8} {dcAddr : Int16} {offAtChange : Bool} :
    wp (fun e => ∃ fault, e = .dcc fault) (changeMode shield t d mode dcAddr offAtChange)
      (fun _ _ => True) s ↔ shield.Filled := by
  have hchange := @wp_changeMode shield s t d mode dcAddr offAtChange
  constructor
  · intro h
    unfold wp at h hchange
    split at h
    · next heq =>
      rw [heq] at hchange
      exact hchange
    · next heq =>
      rw [heq] at hchange
      obtain ⟨u, -, -, rfl⟩ | ⟨hfilled, -⟩ := hchange
      · obtain ⟨fault, hfault⟩ := h
        cases hfault
      · exact hfilled
  · intro hfilled
    refine wp_mono (wp_mono_fault (fun e he => ?_) hchange) fun _ _ _ => trivial
    rcases he with hmissing | ⟨-, hdcc⟩
    · exact absurd hfilled hmissing.not_filled
    · exact hdcc

/-- What a call of `setTrackMode` reads: nothing that is null, if the shield is filled or it refuses. -/
theorem wp_setTrackMode_iff {t : Nat} {mode : UInt8} {dcAddr : Int16} {offAtChange : Bool} :
    wp (fun e => ∃ fault, e = .dcc fault) (setTrackMode shield t mode dcAddr offAtChange) (fun ok s' =>
      if ok then ∃ d, shield.track t = some d else s' = s) s ↔
      ∀ d, shield.track t = some d → ¬ Refused s.joins.station.platform (s.driver d) mode → shield.Filled := by
  simp only [setTrackMode, wp_bind, wp_get]
  by_cases hle : shield.numTracks ≤ t
  · rw [if_pos hle]
    refine iff_of_true rfl fun d hd => ?_
    exact absurd (lt_numTracks hd) (Nat.not_lt.mpr hle)
  rw [if_neg hle]
  cases ht : shield.track t with
  | none => exact iff_of_true rfl fun d hd => by cases hd
  | some d =>
    simp only
    by_cases hrefused : Refused s.joins.station.platform (s.driver d) mode
    · rw [if_pos hrefused]
      refine iff_of_true rfl fun d' hd' hnot => ?_
      cases hd'
      exact absurd hrefused hnot
    · rw [if_neg hrefused, wp_bind]
      have hthere : ∃ d', some d = some d' := ⟨d, rfl⟩
      simp only [wp_pure, if_true, hthere]
      rw [wp_changeMode_iff]
      constructor
      · exact fun hfilled _ _ _ => hfilled
      · exact fun h => h d rfl hrefused

theorem modeOf_auto (boosts disableProg : Bool) : modeOf boosts disableProg (hk "AUTO") = none := by
  cases boosts <;> cases disableProg <;> decide

theorem modeOf_inv (boosts disableProg : Bool) : modeOf boosts disableProg (hk "INV") = none := by
  cases boosts <;> cases disableProg <;> decide

theorem modifierOf_ne_none {keyword : Int16} :
    modifierOf keyword ≠ none ↔ keyword = hk "AUTO" ∨ keyword = hk "INV" := by
  unfold modifierOf
  grind

/-- A mode is set without a null pointer if and only if its track is fitted where it is asked for its mode,
and all tracks are where the mode is changed. -/
theorem wp_parseMode_iff {t : Nat} {keyword : Int16} :
    wp (fun e => ∃ fault, e = .dcc fault) (parseMode shield t keyword) (fun ok s' =>
      if ok then ∃ d, shield.track t = some d else s' = s) s ↔
      (keyword = hk "AUTO" ∨ keyword = hk "INV" → ∃ d, shield.track t = some d) ∧
      ∀ d mode, shield.track t = some d → asked shield s d [keyword] = some mode →
        ¬ Refused s.joins.station.platform (s.driver d) mode → shield.Filled := by
  simp only [parseMode, wp_bind, wp_get, asked]
  -- a keyword names a mode, or modifies the one that the track has, or is unknown
  cases hmode : modeOf s.boosts shield.disableProg keyword with
  | some mode =>
    have hneither : ¬ (keyword = hk "AUTO" ∨ keyword = hk "INV") := by
      rintro (rfl | rfl)
      · rw [modeOf_auto] at hmode
        cases hmode
      · rw [modeOf_inv] at hmode
        cases hmode
    simp only [wp_setTrackMode_iff, hneither, false_imp_iff, true_and, Option.some_or, Option.some.injEq]
    constructor
    · rintro h d _ hd rfl
      exact h d hd
    · exact fun h d hd => h d mode hd rfl
  | none =>
    cases hmodifier : modifierOf keyword with
    | none =>
      have hneither : ¬ (keyword = hk "AUTO" ∨ keyword = hk "INV") := by
        rw [← modifierOf_ne_none, hmodifier]
        exact fun hne => hne rfl
      refine iff_of_true rfl ⟨fun h => absurd h hneither, fun d mode _ hasked => ?_⟩
      cases hasked
    | some modifier =>
      have hkeyword : keyword = hk "AUTO" ∨ keyword = hk "INV" := by
        rw [← modifierOf_ne_none, hmodifier]
        exact Option.some_ne_none modifier
      simp only [hkeyword, true_imp_iff, Option.none_or, Option.map_some, Option.some.injEq, wp_bind, entry]
      cases ht : shield.track t with
      | none =>
        refine iff_of_false ?_ ?_
        · rintro ⟨fault, hfault⟩
          cases hfault
        · rintro ⟨⟨d, hd⟩, -⟩
          cases hd
      | some d =>
        rw [wp_pure, ← ht, wp_setTrackMode_iff, ht]
        simp

theorem safe_cons {letter : Int16} {p : List Int16} : Safe shield (letter :: p) s ↔
    wp (fun e => ∃ fault, e = .dcc fault) (parseEqualSign shield (letter :: p)) (fun ok s' =>
      if ok then ∃ d, shield.track (letter - hk "A").toInt.toNat = some d else s' = s) s := by
  simp [Safe]

/-- When a command with a letter reads no track that is not fitted. -/
theorem safe_cons_iff {letter : Int16} {p : List Int16} : Safe shield (letter :: p) s ↔ (InTable letter →
    (p = [hk "AUTO"] ∨ p = [hk "INV"] → ∃ d, shield.track (letter - hk "A").toInt.toNat = some d) ∧
    ∀ d mode, shield.track (letter - hk "A").toInt.toNat = some d → asked shield s d p = some mode →
      ¬ Refused s.joins.station.platform (s.driver d) mode → shield.Filled) := by
  rw [safe_cons, parseEqualSign]
  by_cases hout : p ≠ [] ∧ (letter - hk "A" < 0 ∨ JoinStation.maxTracks ≤ letter - hk "A")
  · rw [if_pos hout]
    refine iff_of_true rfl fun hin => ?_
    rcases hout.2 with hneg | hbig
    · exact absurd hin.1 (Int16.not_le.mpr hneg)
    · exact absurd hin.2 (Int16.not_lt.mpr hbig)
  rw [if_neg hout]
  have hin : p ≠ [] → InTable letter := by
    intro hp
    rw [not_and, not_or] at hout
    exact ⟨Int16.not_lt.mp (hout hp).1, Int16.not_le.mp (hout hp).2⟩
  rcases p with _ | ⟨keyword, _ | ⟨cab, _ | ⟨more, p⟩⟩⟩
  · exact iff_of_true rfl fun _ => ⟨by simp, fun d mode _ hasked => by cases hasked⟩
  · have hlist : ∀ x, [keyword] = [x] ↔ keyword = x := fun x => List.singleton_inj
    simp only [hin (List.cons_ne_nil _ _), true_imp_iff, hlist]
    exact wp_parseMode_iff
  · simp only [hin (List.cons_ne_nil _ _), true_imp_iff, asked, parseAssignment]
    cases modeOfCab keyword cab with
    | none => exact iff_of_true rfl ⟨by simp, fun d mode _ hasked => by cases hasked⟩
    | some mode =>
      rw [wp_setTrackMode_iff]
      constructor
      · refine fun h => ⟨by simp, ?_⟩
        rintro d _ hd ⟨⟩
        exact h d hd
      · exact fun h d hd => h.2 d mode hd rfl
  · exact iff_of_true rfl fun _ => ⟨by simp, fun d mode _ hasked => by cases hasked⟩

/-- **What the command asks of the shield.** Whatever tracks are fitted, the command reads no entry that
is null if and only if it does not ask for the present mode of a track that is missing and, unless it is
refused, no track in front of the last one is missing. -/
theorem parseEqualSign_safe_iff (shield : Shield) (params : List Int16) (s : FittedStation) :
    Safe shield params s ↔ ∀ letter p, params = letter :: p → InTable letter →
      (p = [hk "AUTO"] ∨ p = [hk "INV"] → ∃ d, shield.track (letter - hk "A").toInt.toNat = some d) ∧
      ∀ d mode, shield.track (letter - hk "A").toInt.toNat = some d → asked shield s d p = some mode →
        ¬ Refused s.joins.station.platform (s.driver d) mode → shield.Filled := by
  cases params with
  | nil =>
    refine iff_of_true ?_ fun letter p h => ?_
    · have hstream : wp (fun _ => False) (runProg (streamTrackState shield true) (List.range shield.numTracks))
          (fun _ _ => True) s := by
        refine wp_runProg (fun _ => True) (fun s t _ _ => ?_) trivial (alongProg_of_forall (fun _ _ _ => trivial) s)
        unfold streamTrackState
        exact wp_ite (fun _ => trivial) fun _ => trivial
      simp only [Safe, parseEqualSign, wp_bind]
      refine wp_mono (wp_mono_fault (fun _ => False.elim) hstream) fun _ s' _ => ?_
      intro letter p h
      cases h
    · cases h
  | cons letter p =>
    constructor
    · rintro h _ _ ⟨⟩
      exact safe_cons_iff.mp h
    · exact fun h => safe_cons_iff.mpr (h letter p rfl)

/-- A shield with the two tracks A and B. -/
def twoTracks : Shield where
  track t := if t < 2 then some t else none
  isPWMCapable _ := true
  disableProg := false
  small t d h := by
    by_contra hbig
    rw [if_neg (by omega)] at h
    cases h
  distinct t u d ht hu := by
    grind

/-- `<= H AUTO>` reads the mode of a track that this shield does not have. -/
theorem auto_reads_missing : ¬ ∀ (shield : Shield) (params : List Int16) (s : FittedStation),
    Safe shield params s := by
  intro h
  let s : FittedStation :=
    ⟨JoinStation.init (Station.init .avr 50 [.pwm, .pwm]) false, fun _ => false, false⟩
  have hread : parseEqualSign twoTracks [hk "H", hk "AUTO"] s = .error (.absent 7) := by
    rfl
  have hsafe := h twoTracks [hk "H", hk "AUTO"] s
  unfold Safe wp at hsafe
  rw [hread] at hsafe
  obtain ⟨fault, hfault⟩ := hsafe
  cases hfault

end

end FittedStation

end CommandStation
