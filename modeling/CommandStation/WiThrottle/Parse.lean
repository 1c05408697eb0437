import CommandStation.WiThrottle.Lines
import Mathlib.Data.List.Forall2

/-!
# Lines together and one at a time

`parse` sends a part of the metadata at each call, and then does what the lines of its buffer ask for.
What that does to turnouts, power and locos depends on the action and the state only, so an effect is
the action itself, or what is sent. After `Q` there is no client any more, and whoever parses again for
it gets a new one.
-/

namespace CommandStation.WiThrottle

open CommandStation.Lib

/-! ## The client -/

/-- What a client has been sent. -/
structure Sent where
  introSent : Bool
  turnoutsSent : Bool
  rosterSent : Bool
  routesSent : Bool
  heartrateSent : Bool
  deriving DecidableEq, Repr

namespace Sent

/-- The constructor of `WiThrottle`. -/
def fresh : Sent := ⟨false, false, false, false, false⟩

/-- All metadata has been sent. -/
def done (s : Sent) : Bool := s.turnoutsSent && s.rosterSent && s.routesSent && s.heartrateSent

end Sent

/-- What is done, with what is noted of it in the client. -/
inductive Effect where
  | turnouts | roster | routes | connected  -- the metadata
  | intro
  | timeout (heartrateSent : Bool)          -- `*%d`
  | action (action : Action)
  deriving DecidableEq, Repr

/-- On first few commands, send turnout, roster and routes. -/
def metadata (s : Sent) : Sent × List Effect :=
  if s.introSent then
    if !s.turnoutsSent then ({ s with turnoutsSent := true }, [.turnouts])
    else if !s.rosterSent then ({ s with rosterSent := true }, [.roster])
    else if !s.routesSent then ({ s with routesSent := true }, [.routes])
    else if !s.heartrateSent then ({ s with heartrateSent := true }, [.connected])
    else (s, [])
  else (s, [])

/-- `sendIntro` only once. -/
def sendIntro (s : Sent) : Sent × List Effect :=
  if s.introSent then (s, []) else ({ s with introSent := true }, [.intro])

/-- What a line does. -/
def act (s : Sent) : Action → Sent × List Effect
  | .nothing => (s, [])
  | .sendIntro => sendIntro s
  | .heartbeat => ((sendIntro s).1, (sendIntro s).2 ++ [.timeout (sendIntro s).1.heartrateSent])
  | action => (s, [.action action])

/-- `Q` deletes the client. -/
def perform (s : Sent) (action : Action) : Option Sent × List Effect :=
  (if action = .quit then none else some (act s action).1, (act s action).2)

/-- The members of the client are read or written. -/
def Action.usesClient : Action → Bool
  | .nothing | .setMainPower _ | .accessory _ _ | .createNewTask _ false => false
  | .noValidLoco _ | .zeroAddress => false
  | _ => true

/-- A line that comes after `Q` may not touch the client. -/
def takeAction (client : Option Sent) (action : Action) : Option (Option Sent × List Effect) :=
  match client with
  | some s => some (perform s action)
  | none => if action.usesClient then none else some (none, (act .fresh action).2)

/-! ## Parsing -/

/-- Skip over `cmd` until 0 or past a return or newline. -/
def skipLine : List UInt8 → List UInt8
  | [] => []
  | b :: rest => if b = 0 then b :: rest else if b = 10 ∨ b = 13 then rest else skipLine rest

section Parse

variable (platform : Platform) (exrail : Bool)

/-- `while (cmd[0])`; the buffer is not longer than `fuel`. -/
def parseLoop : Nat → List UInt8 → Option Sent → Option (Option Sent × List Effect)
  | 0, _, _ => none
  | fuel + 1, cmd, client =>
    if cmd.head? = some 0 then some (client, [])
    else
      (readLine platform exrail cmd).bind fun action =>
        (takeAction client action).bind fun done =>
          (parseLoop fuel (skipLine cmd) done.1).map fun rest => (rest.1, done.2 ++ rest.2)

/-- `WiThrottle::parse`, for the client that `getThrottle` gives. -/
def parse (client : Option Sent) (buffer : List UInt8) : Option (Option Sent × List Effect) :=
  let start := metadata (client.getD .fresh)
  (parseLoop platform exrail buffer.length buffer (some start.1)).map fun rest =>
    (rest.1, start.2 ++ rest.2)

/-- Each line in a buffer of its own. -/
def parseEach : Option Sent → List (List UInt8) → Option (Option Sent × List Effect)
  | client, [] => some (client, [])
  | client, line :: lines =>
    (parse platform exrail client (line ++ [0])).bind fun done =>
      (parseEach done.1 lines).map fun rest => (rest.1, done.2 ++ rest.2)

end Parse

/-- A line with its terminator. -/
structure Line where
  chars : List UInt8
  stop : UInt8
  plain : ∀ b ∈ chars, ¬ End b
  ends : stop = 10 ∨ stop = 13

/-- The bytes of these lines, and what is left before the NUL. -/
def text (lines : List Line) (last : List UInt8) : List UInt8 :=
  lines.flatMap (fun line => line.chars ++ [line.stop]) ++ (last ++ [0])

/-- What is received, by lines. -/
structure Buffer where
  lines : List Line
  last : List UInt8
  plain : ∀ b ∈ last, ¬ End b

namespace Buffer

def text (buffer : Buffer) : List UInt8 := WiThrottle.text buffer.lines buffer.last

/-- The lines one at a time. Nothing is left to send behind a final return or newline. -/
def pieces (buffer : Buffer) : List (List UInt8) :=
  buffer.lines.map Line.chars ++
    if buffer.lines ≠ [] ∧ buffer.last = [] then [] else [buffer.last]

end Buffer

/-- Whatever is received has lines. -/
theorem exists_buffer (received : List UInt8) (h : 0 ∉ received) :
    ∃ buffer : Buffer, buffer.text = received ++ [0] := by
  induction received with
  | nil => exact ⟨⟨[], [], List.forall_mem_nil _⟩, rfl⟩
  | cons b received ih =>
    rw [List.mem_cons, not_or] at h
    obtain ⟨⟨lines, last, hlast⟩, htext⟩ := ih h.2
    by_cases hstop : b = 10 ∨ b = 13
    · refine ⟨⟨⟨[], b, List.forall_mem_nil _, hstop⟩ :: lines, last, hlast⟩, ?_⟩
      rw [List.cons_append, ← htext]
      rfl
    have hplain : ¬ End b := by
      rintro (h0 | hstop')
      · exact h.1 h0.symm
      · exact hstop hstop'
    cases lines with
    | nil =>
      refine ⟨⟨[], b :: last, List.forall_mem_cons.mpr ⟨hplain, hlast⟩⟩, ?_⟩
      rw [List.cons_append, ← htext]
      rfl
    | cons line lines =>
      obtain ⟨chars, stop, hchars, hends⟩ := line
      refine ⟨⟨⟨b :: chars, stop, List.forall_mem_cons.mpr ⟨hplain, hchars⟩, hends⟩ :: lines, last,
        hlast⟩, ?_⟩
      rw [List.cons_append, ← htext]
      rfl

/-! ## Actions -/

/-- The actions of a buffer. -/
def performAll : Option Sent → List Action → Option (Option Sent × List Effect)
  | client, [] => some (client, [])
  | client, action :: actions =>
    (takeAction client action).bind fun done =>
      (performAll done.1 actions).map fun rest => (rest.1, done.2 ++ rest.2)

/-- The actions of buffers with one line each. -/
def performEach : Option Sent → List Action → Option Sent × List Effect
  | client, [] => (client, [])
  | client, action :: actions =>
    let start := metadata (client.getD .fresh)
    let done := perform start.1 action
    let rest := performEach done.1 actions
    (rest.1, start.2 ++ (done.2 ++ rest.2))

section Actions

variable {s : Sent} {a b : Action} {actions : List Action}

/-- The intro is sent by `N` and `HU`. -/
def Action.introduces (a : Action) : Bool := a == .heartbeat || a == .sendIntro

theorem introSent_act : (act s a).1.introSent = (s.introSent || a.introduces) := by
  cases a <;> simp [act, sendIntro, Action.introduces] <;> split <;> simp_all

theorem done_act : (act s a).1.done = s.done := by
  cases a <;> simp [act, sendIntro, Sent.done] <;> split <;> rfl

/-- No metadata is left to send, or not before the intro. -/
theorem metadata_silent : (metadata s).2 = [] ↔ s.introSent = false ∨ s.done = true := by
  obtain ⟨intro, turnouts, roster, routes, heartrate⟩ := s
  cases intro <;> cases turnouts <;> cases roster <;> cases routes <;> cases heartrate <;> decide

theorem metadata_of_silent (h : (metadata s).2 = []) : metadata s = (s, []) := by
  obtain ⟨intro, turnouts, roster, routes, heartrate⟩ := s
  revert h
  cases intro <;> cases turnouts <;> cases roster <;> cases routes <;> cases heartrate <;> decide

/-- A part of the metadata. -/
def Effect.isMetadata : Effect → Bool
  | .turnouts | .roster | .routes | .connected => true
  | _ => false

theorem isMetadata_metadata : ∀ e ∈ (metadata s).2, e.isMetadata = true := by
  obtain ⟨intro, turnouts, roster, routes, heartrate⟩ := s
  cases intro <;> cases turnouts <;> cases roster <;> cases routes <;> cases heartrate <;> decide

theorem isMetadata_act : ∀ e ∈ (act s a).2, e.isMetadata = false := by
  intro e he
  cases a <;> simp only [act, sendIntro, List.mem_append, List.mem_singleton, List.not_mem_nil] at he <;>
    grind [Effect.isMetadata]

/-- What the lines of one buffer do sends no metadata. -/
theorem isMetadata_performAll {client : Option Sent} {r : Option Sent × List Effect}
    (h : performAll client actions = some r) : ∀ e ∈ r.2, e.isMetadata = false := by
  induction actions generalizing client r with
  | nil =>
    cases h
    exact fun e he => by cases he
  | cons a actions ih =>
    obtain ⟨done, hdone, hmap⟩ := Option.bind_eq_some_iff.mp h
    obtain ⟨rest, hrest, rfl⟩ := Option.map_eq_some_iff.mp hmap
    intro e he
    rcases List.mem_append.mp he with he | he
    · cases client with
      | some s =>
        cases hdone
        exact isMetadata_act e he
      | none =>
        rw [takeAction] at hdone
        split at hdone
        · cases hdone
        · cases hdone
          exact isMetadata_act e he
    · exact ih hrest e he

/-- Once the client is gone it is not there again, and there is no other `Q`. -/
theorem performAll_none {r : Option Sent × List Effect} (h : performAll none actions = some r) :
    r.1 = none ∧ Action.quit ∉ actions := by
  induction actions generalizing r with
  | nil =>
    cases h
    exact ⟨rfl, List.not_mem_nil⟩
  | cons a actions ih =>
    obtain ⟨done, hdone, hmap⟩ := Option.bind_eq_some_iff.mp h
    obtain ⟨rest, hrest, rfl⟩ := Option.map_eq_some_iff.mp hmap
    rw [takeAction] at hdone
    split at hdone
    · cases hdone
    · next huses =>
      cases hdone
      obtain ⟨hnone, hquit⟩ := ih hrest
      refine ⟨hnone, ?_⟩
      rw [List.mem_cons, not_or]
      refine ⟨fun heq => ?_, hquit⟩
      subst heq
      exact huses rfl

/-- Without `Q` there is a client in the end. -/
theorem performEach_isSome {client : Option Sent} (hne : actions ≠ []) (hquit : Action.quit ∉ actions) :
    (performEach client actions).1.isSome = true := by
  induction actions generalizing client with
  | nil => exact absurd rfl hne
  | cons a actions ih =>
    rw [List.mem_cons, not_or] at hquit
    cases actions with
    | nil =>
      simp only [performEach, perform]
      rw [if_neg (Ne.symm hquit.1)]
      rfl
    | cons b actions => exact ih (List.cons_ne_nil _ _) hquit.2

/-- Between two lines nothing but the action is done: the client is still there, and no metadata is
sent. -/
def Steady : Sent → Action → List Action → Prop
  | _, _, [] => True
  | s, a, b :: actions =>
    a ≠ .quit ∧ (metadata (act s a).1).2 = [] ∧ Steady (act s a).1 b actions

/-- One buffer for all and a buffer for each. -/
theorem performAll_eq_iff : performAll (some s) (a :: actions) =
    some ((performEach (perform s a).1 actions).1,
      (perform s a).2 ++ (performEach (perform s a).1 actions).2) ↔ Steady s a actions := by
  induction actions generalizing s a with
  | nil => simp [performAll, takeAction, performEach, Steady]
  | cons b actions ih =>
    rw [performAll, takeAction, Option.bind_some, Steady]
    by_cases hquit : a = .quit
    · -- the client is gone
      have hclient : (perform s a).1 = none := if_pos hquit
      refine iff_of_false (fun heq => ?_) fun hsteady => hsteady.1 hquit
      obtain ⟨rest, hrest, heq⟩ := Option.map_eq_some_iff.mp heq
      rw [hclient] at hrest heq
      obtain ⟨hnone, hmore⟩ := performAll_none hrest
      have hsome := @performEach_isSome _ none (List.cons_ne_nil b actions) hmore
      rw [← congrArg Prod.fst heq, hnone] at hsome
      cases hsome
    rw [and_iff_right hquit]
    have hclient : (perform s a).1 = some (act s a).1 := if_neg hquit
    have heach : performEach (some (act s a).1) (b :: actions) =
        ((performEach (perform (metadata (act s a).1).1 b).1 actions).1,
          (metadata (act s a).1).2 ++ ((perform (metadata (act s a).1).1 b).2 ++
            (performEach (perform (metadata (act s a).1).1 b).1 actions).2)) := rfl
    rw [hclient, heach]
    by_cases hsilent : (metadata (act s a).1).2 = []
    · rw [metadata_of_silent hsilent, and_iff_right rfl, ← ih]
      cases performAll (some (act s a).1) (b :: actions) with
      | none => simp
      | some r => simp [Prod.ext_iff]
    · -- the metadata is sent in one of the buffers only
      refine iff_of_false (fun heq => ?_) fun hsteady => hsilent hsteady.1
      obtain ⟨rest, hrest, heq⟩ := Option.map_eq_some_iff.mp heq
      obtain ⟨e, he⟩ := List.exists_mem_of_ne_nil _ hsilent
      have heffects := List.append_cancel_left (congrArg Prod.snd heq)
      have hnot := isMetadata_performAll hrest e (by
        rw [heffects]
        exact List.mem_append_left _ he)
      rw [isMetadata_metadata e he] at hnot
      cases hnot

/-- **When the lines are steady**: no `Q` comes before another line, and the metadata has been sent, or
nothing but the last line introduces the client. -/
theorem steady_iff : Steady s a actions ↔
    Action.quit ∉ (a :: actions).dropLast ∧ (actions = [] ∨ s.done = true ∨
      s.introSent = false ∧ ∀ b ∈ (a :: actions).dropLast, b.introduces = false) := by
  induction actions generalizing s a with
  | nil => simp [Steady]
  | cons b actions ih =>
    have hnil : actions = [] → (b :: actions).dropLast = [] := by
      rintro rfl
      rfl
    rw [Steady, ih, metadata_silent, introSent_act, done_act, List.dropLast_cons_cons]
    generalize (b :: actions).dropLast = before at hnil ⊢
    cases hdone : s.done with
    | true =>
      simp only [List.mem_cons, not_or, or_true, true_or, and_true, true_and]
      grind
    | false =>
      simp only [List.mem_cons, not_or, forall_eq_or_imp, Bool.or_eq_false_iff, Bool.false_eq_true,
        reduceCtorEq, or_false, false_or]
      grind

end Actions

/-! ## Buffers -/

section Buffers

variable {platform : Platform} {exrail : Bool} {client : Option Sent} {chars last : List UInt8}
  {lines : List Line} {t : UInt8}

theorem skipLine_append (hplain : ∀ b ∈ chars, ¬ End b) (cmd : List UInt8) :
    skipLine (chars ++ cmd) = skipLine cmd := by
  induction chars with
  | nil => rfl
  | cons b chars ih =>
    have hb := hplain b List.mem_cons_self
    have h0 : b ≠ 0 := fun h => hb (.inl h)
    have hstop : ¬ (b = 10 ∨ b = 13) := fun h => hb (.inr h)
    rw [List.cons_append, skipLine, if_neg h0, if_neg hstop,
      ih fun b' hb' => hplain b' (List.mem_cons_of_mem _ hb')]

/-- One turn of the loop. -/
theorem parseLoop_line (line : Line) {fuel : Nat} {rest : List UInt8} {action : Action}
    (hread : readLine platform exrail (line.chars ++ [line.stop]) = some action) :
    parseLoop platform exrail (fuel + 1) ((line.chars ++ [line.stop]) ++ rest) client =
      (takeAction client action).bind fun done =>
        (parseLoop platform exrail fuel rest done.1).map fun r => (r.1, done.2 ++ r.2) := by
  have hstop : line.stop ≠ 0 ∧ skipLine (line.stop :: rest) = rest := by
    rcases line.ends with h | h <;> rw [h] <;> exact ⟨by decide, rfl⟩
  have hhead : ((line.chars ++ [line.stop]) ++ rest).head? ≠ some 0 := by
    cases hchars : line.chars with
    | nil => exact fun h => hstop.1 (Option.some.inj h)
    | cons b chars =>
      have hb := line.plain b (by rw [hchars]; exact List.mem_cons_self)
      exact fun h => hb (.inl (Option.some.inj h))
  rw [parseLoop, if_neg hhead, local_readLine exrail _ rest action hread, Option.bind_some,
    List.append_assoc, skipLine_append line.plain, List.singleton_append, hstop.2]

/-- The last turn. -/
theorem parseLoop_last (hplain : ∀ b ∈ last, ¬ End b) {fuel : Nat} (hfuel : last.length < fuel)
    {action : Action} (hread : readLine platform exrail (last ++ [0]) = some action) :
    parseLoop platform exrail fuel (last ++ [0]) client = takeAction client action := by
  obtain ⟨fuel, rfl⟩ : ∃ n, fuel = n + 1 := ⟨fuel - 1, by omega⟩
  rw [parseLoop]
  cases last with
  | nil =>
    rw [show readLine platform exrail ([] ++ [0]) = some .nothing from rfl] at hread
    cases hread
    cases client <;> rfl
  | cons b chars =>
    have hb := hplain b List.mem_cons_self
    have hhead : (b :: chars ++ [0]).head? ≠ some 0 := fun h => hb (.inl (Option.some.inj h))
    obtain ⟨fuel, rfl⟩ : ∃ n, fuel = n + 1 := by
      rw [List.length_cons] at hfuel
      exact ⟨fuel - 1, by omega⟩
    have hend : ∀ client, parseLoop platform exrail (fuel + 1) [0] client = some (client, []) :=
      fun client => rfl
    have hskip : skipLine (b :: chars ++ [0]) = [0] := skipLine_append hplain [0]
    rw [if_neg hhead, hread, Option.bind_some, hskip]
    simp [hend]

/-- What is read of a buffer are the actions of its lines. -/
theorem parseLoop_text (hplain : ∀ b ∈ last, ¬ End b) {actions : List Action} {action : Action}
    (hlines : List.Forall₂ (fun (line : Line) action =>
      readLine platform exrail (line.chars ++ [line.stop]) = some action) lines actions)
    (hlast : readLine platform exrail (last ++ [0]) = some action) {fuel : Nat}
    (hfuel : (text lines last).length ≤ fuel) :
    parseLoop platform exrail fuel (text lines last) client =
      performAll client (actions ++ [action]) := by
  induction hlines generalizing client fuel with
  | nil =>
    simp only [text, List.flatMap_nil, List.nil_append, List.length_append,
      List.length_singleton] at hfuel ⊢
    rw [parseLoop_last hplain (by omega) hlast, performAll]
    cases takeAction client action with
    | none => rfl
    | some r => simp [performAll]
  | @cons line action' lines actions hline hlines ih =>
    have htext : text (line :: lines) last = (line.chars ++ [line.stop]) ++ text lines last := by
      simp [text]
    rw [htext, List.length_append, List.length_append, List.length_singleton] at hfuel
    obtain ⟨fuel, rfl⟩ : ∃ n, fuel = n + 1 := ⟨fuel - 1, by omega⟩
    rw [htext, parseLoop_line line hline, List.cons_append, performAll]
    congr 1
    funext done
    rw [ih (by omega)]

/-- A buffer with one line. -/
theorem parse_line (hplain : ∀ b ∈ chars, ¬ End b) {action : Action}
    (hread : readLine platform exrail (chars ++ [0]) = some action) :
    parse platform exrail client (chars ++ [0]) =
      some ((perform (metadata (client.getD .fresh)).1 action).1,
        (metadata (client.getD .fresh)).2 ++ (perform (metadata (client.getD .fresh)).1 action).2) := by
  have hfuel : chars.length < (chars ++ [0]).length := by simp
  rw [parse, parseLoop_last hplain hfuel hread]
  rfl

theorem parseEach_eq {texts : List (List UInt8)} {actions : List Action}
    (htexts : List.Forall₂ (fun chars action => (∀ b ∈ chars, ¬ End b) ∧
      readLine platform exrail (chars ++ [0]) = some action) texts actions) :
    parseEach platform exrail client texts = some (performEach client actions) := by
  induction htexts generalizing client with
  | nil => rfl
  | cons hline htexts ih =>
    rw [parseEach, parse_line hline.1 hline.2, Option.bind_some, ih, Option.map_some, performEach]
    simp only [List.append_assoc]

/-! ### What a line is -/

/-- The client is neither introduced nor deleted. -/
def Action.Plain (a : Action) : Prop := a.introduces = false ∧ a ≠ .quit

section Plain

variable {β : Type}

theorem plain_bind {o : Option β} {f : β → Option Action} (h : ∀ b, ∀ a ∈ f b, a.Plain) :
    ∀ a ∈ o.bind f, a.Plain := by
  intro a ha
  obtain ⟨b, -, hb⟩ := Option.bind_eq_some_iff.mp ha
  exact h b a hb

theorem plain_map {o : Option β} {f : β → Action} (h : ∀ b, (f b).Plain) : ∀ a ∈ o.map f, a.Plain := by
  intro a ha
  obtain ⟨b, -, rfl⟩ := Option.map_eq_some_iff.mp ha
  exact h b

theorem plain_some {a : Action} (h : a.Plain) : ∀ a' ∈ some a, a'.Plain := by
  intro a' ha'
  cases ha'
  exact h

theorem plain_ite {c : Prop} [Decidable c] {o o' : Option Action} (h : ∀ a ∈ o, a.Plain)
    (h' : ∀ a ∈ o', a.Plain) : ∀ a ∈ if c then o else o', a.Plain := by
  split
  · exact h
  · exact h'

theorem plain_nothing : Action.nothing.Plain := ⟨rfl, nofun⟩

end Plain

theorem plain_readPower (cmd : List UInt8) : ∀ a ∈ readPower platform exrail cmd, a.Plain := by
  have hnothing := plain_some plain_nothing
  refine plain_bind fun c1 => plain_ite ?_ (plain_ite ?_ (plain_ite ?_ hnothing))
  · refine plain_bind fun c2 => plain_ite ?_ hnothing
    exact plain_map fun c3 => ⟨rfl, nofun⟩
  · refine plain_bind fun c2 => plain_ite (plain_bind fun c3 => plain_ite ?_ hnothing) hnothing
    exact plain_bind fun route => plain_map fun c4 => ⟨rfl, nofun⟩
  · refine plain_bind fun c2 => plain_ite ?_ hnothing
    exact plain_bind fun id => plain_map fun c3 => ⟨rfl, nofun⟩

theorem plain_readMultithrottle (cmd : List UInt8) :
    ∀ a ∈ readMultithrottle platform cmd, a.Plain := by
  refine plain_bind fun c1 => plain_bind fun locoid => plain_ite (plain_some ⟨rfl, nofun⟩) ?_
  refine plain_bind fun _ => plain_bind fun c2 => plain_ite ?_ (plain_ite (plain_some ⟨rfl, nofun⟩) ?_)
  · refine plain_map fun c3 => ?_
    split
    · exact ⟨rfl, nofun⟩
    split <;> exact ⟨rfl, nofun⟩
  · refine plain_ite (plain_map fun action => ?_) (plain_some plain_nothing)
    cases action <;> exact ⟨rfl, nofun⟩

/-- `N` and `HU` introduce a client, `Q` quits. -/
theorem readLine_kind (ht : End t) {a : Action}
    (h : readLine platform exrail (chars ++ [t]) = some a) :
    (a = .quit ↔ chars.head? = some 81) ∧
      (a.introduces = true ↔ chars.head? = some 78 ∨ chars.take 2 = [72, 85]) := by
  have hplain : a.Plain → chars.head? ≠ some 81 → chars.head? ≠ some 78 → chars.take 2 ≠ [72, 85] →
      (a = .quit ↔ chars.head? = some 81) ∧
        (a.introduces = true ↔ chars.head? = some 78 ∨ chars.take 2 = [72, 85]) := by
    intro hplain hquit hbeat hintro
    refine ⟨iff_of_false hplain.2 hquit, iff_of_false ?_ (not_or.mpr ⟨hbeat, hintro⟩)⟩
    rw [hplain.1]
    exact Bool.false_ne_true
  -- by the first character, in the order of the cases of `parse`
  cases chars with
  | nil =>
    have hnothing : readLine platform exrail [t] = some .nothing := by
      rcases ht with rfl | rfl | rfl <;> rfl
    rw [List.nil_append, hnothing] at h
    cases h
    exact hplain plain_nothing (by simp) (by simp) (by simp)
  | cons c0 xs =>
    rw [readLine, List.cons_append, List.getElem?_cons_zero, Option.bind_some] at h
    have hother : a.Plain → c0 ≠ 81 → c0 ≠ 78 → c0 ≠ 72 → (a = .quit ↔ (c0 :: xs).head? = some 81) ∧
        (a.introduces = true ↔ (c0 :: xs).head? = some 78 ∨ (c0 :: xs).take 2 = [72, 85]) := by
      intro hp hquit hbeat hintro
      refine hplain hp (fun h => hquit (Option.some.inj h)) (fun h => hbeat (Option.some.inj h)) fun h => ?_
      rw [List.take_succ_cons, List.cons.injEq] at h
      exact hintro h.1
    split at h
    · next hc0 =>
      subst hc0
      refine hother (plain_map (fun c1 => ?_) a h) (by decide) (by decide) (by decide)
      split
      · exact ⟨rfl, (by simp)⟩
      split <;> exact ⟨rfl, (by simp)⟩
    split at h
    · next hc0 =>
      subst hc0
      exact hother (plain_readPower _ a h) (by decide) (by decide) (by decide)
    split at h
    · next hc0 =>
      subst hc0
      cases h
      exact ⟨iff_of_false (by simp) (by simp), iff_of_true rfl (.inl rfl)⟩
    split at h
    · next hc0 =>
      subst hc0
      exact hother (plain_readMultithrottle _ a h) (by decide) (by decide) (by decide)
    split at h
    · next hc0 =>
      subst hc0
      -- `H` alone, `HU`, and `H` with anything else
      cases xs with
      | nil =>
        have hend : t ≠ 85 := by rcases ht with rfl | rfl | rfl <;> decide
        simp only [List.nil_append, List.getElem?_cons_succ, List.getElem?_cons_zero, Option.map_some,
          hend, if_false, Option.some.injEq] at h
        subst h
        exact hplain plain_nothing (by simp) (by simp) (by simp)
      | cons c1 xs =>
        simp only [List.cons_append, List.getElem?_cons_succ, List.getElem?_cons_zero, Option.map_some,
          Option.some.injEq] at h
        by_cases hc1 : c1 = 85
        · subst hc1
          cases h
          exact ⟨iff_of_false (by simp) (by simp), iff_of_true rfl (.inr rfl)⟩
        · rw [if_neg hc1] at h
          subst h
          refine hplain plain_nothing (by simp) (by simp) fun h => hc1 ?_
          simpa using h
    split at h
    · next hc0 =>
      subst hc0
      cases h
      refine ⟨iff_of_true rfl rfl, iff_of_false Bool.false_ne_true ?_⟩
      rintro (h | h) <;> simp at h
    · next h42 h80 h78 h77 h72 h81 =>
      cases h
      exact hother plain_nothing h81 h78 h72

/-! ### Together and one at a time -/

/-- To have nothing asked for makes no difference. -/
theorem performAll_nothing {actions : List Action} :
    performAll client (actions ++ [.nothing]) = performAll client actions := by
  induction actions generalizing client with
  | nil => cases client <;> rfl
  | cons a actions ih =>
    rw [List.cons_append, performAll, performAll]
    congr 1
    funext done
    rw [ih]

/-- The lines of a buffer do not depend on each other: each is complete, and no `Q` comes before another
line. -/
structure Separable (platform : Platform) (exrail : Bool) (buffer : Buffer) : Prop where
  complete : ∀ line ∈ buffer.lines, Complete platform exrail false line.chars
  completeLast : Complete platform exrail true buffer.last
  quit : ∀ chars ∈ buffer.pieces.dropLast, chars.head? ≠ some 81

/-- No part of the metadata is due between two lines: all has been sent, or nothing but the last line
introduces the client. -/
def Quiet (client : Option Sent) (buffer : Buffer) : Prop :=
  buffer.pieces.length = 1 ∨ (metadata (client.getD .fresh)).1.done = true ∨
    (metadata (client.getD .fresh)).1.introSent = false ∧
      ∀ chars ∈ buffer.pieces.dropLast, ¬ (chars.head? = some 78 ∨ chars.take 2 = [72, 85])

/-- What a line asks for, in a buffer of its own. -/
def asked (platform : Platform) (exrail : Bool) (chars : List UInt8) : Action :=
  (readLine platform exrail (chars ++ [0])).getD .nothing

theorem reads_asked (hplain : ∀ b ∈ chars, ¬ End b) (ht : End t)
    (hcomplete : Complete platform exrail (t == 0) chars) :
    readLine platform exrail (chars ++ [t]) = some (asked platform exrail chars) ∧
      readLine platform exrail (chars ++ [0]) = some (asked platform exrail chars) := by
  have h0 : 0 ∉ chars := fun h => hplain 0 h (.inl rfl)
  obtain ⟨hwithin, hsame⟩ := @reads_line platform exrail chars t ht h0
  obtain ⟨action, haction⟩ := Option.isSome_iff_exists.mp (hwithin.mpr hcomplete)
  have hasked : asked platform exrail chars = action := by
    rw [asked, ← hsame hcomplete, haction]
    rfl
  rw [← hsame hcomplete, hasked]
  exact ⟨haction, haction⟩

theorem stop_ne_nul (line : Line) : (line.stop == 0) = false := by
  rcases line.ends with h | h <;> rw [h] <;> rfl

theorem reads_line_asked (line : Line) (hcomplete : Complete platform exrail false line.chars) :
    readLine platform exrail (line.chars ++ [line.stop]) = some (asked platform exrail line.chars) ∧
      readLine platform exrail (line.chars ++ [0]) = some (asked platform exrail line.chars) := by
  exact reads_asked line.plain (.inr line.ends) (by rwa [stop_ne_nul])

section Pieces

variable {buffer : Buffer}

theorem pieces_ne_nil : buffer.pieces ≠ [] := by
  rw [Buffer.pieces]
  split
  · next h => simpa using h.1
  · simp

theorem reads_pieces (hlines : ∀ line ∈ buffer.lines, Complete platform exrail false line.chars)
    (hlast : Complete platform exrail true buffer.last) :
    ∀ chars ∈ buffer.pieces, (∀ b ∈ chars, ¬ End b) ∧
      readLine platform exrail (chars ++ [0]) = some (asked platform exrail chars) := by
  intro chars hchars
  rcases List.mem_append.mp hchars with hchars | hchars
  · obtain ⟨line, hline, rfl⟩ := List.mem_map.mp hchars
    exact ⟨line.plain, (reads_line_asked line (hlines line hline)).2⟩
  · have heq : chars = buffer.last := by
      split at hchars
      · cases hchars
      · exact List.mem_singleton.mp hchars
    rw [heq]
    exact ⟨buffer.plain, (reads_asked buffer.plain (.inl rfl) hlast).2⟩

/-- Complete lines are performed one after the other, and so is the last one without its end. -/
theorem parseLoop_buffer (hlines : ∀ line ∈ buffer.lines, Complete platform exrail false line.chars)
    (hlast : Complete platform exrail true buffer.last) :
    parseLoop platform exrail buffer.text.length buffer.text client =
      performAll client (buffer.pieces.map (asked platform exrail)) := by
  have hread : List.Forall₂ (fun (line : Line) action =>
      readLine platform exrail (line.chars ++ [line.stop]) = some action) buffer.lines
      (buffer.lines.map fun line => asked platform exrail line.chars) := by
    rw [List.forall₂_map_right_iff, List.forall₂_same]
    exact fun line hline => (reads_line_asked line (hlines line hline)).1
  have hreadLast := (reads_asked buffer.plain (.inl rfl) hlast).1
  rw [Buffer.text, parseLoop_text buffer.plain hread hreadLast le_rfl, Buffer.pieces, List.map_append,
    List.map_map]
  split
  · next h =>
    have hnothing : asked platform exrail buffer.last = .nothing := by
      rw [h.2]
      rfl
    rw [hnothing, performAll_nothing, List.map_nil, List.append_nil]
    rfl
  · rfl

theorem parseEach_buffer (hlines : ∀ line ∈ buffer.lines, Complete platform exrail false line.chars)
    (hlast : Complete platform exrail true buffer.last) :
    parseEach platform exrail client buffer.pieces =
      some (performEach client (buffer.pieces.map (asked platform exrail))) := by
  apply parseEach_eq
  rw [List.forall₂_map_right_iff, List.forall₂_same]
  exact reads_pieces hlines hlast

/-- One call of `parse`, and one for each line. -/
theorem parse_eq_iff (hlines : ∀ line ∈ buffer.lines, Complete platform exrail false line.chars)
    (hlast : Complete platform exrail true buffer.last) :
    parse platform exrail client buffer.text = parseEach platform exrail client buffer.pieces ↔
      (∀ chars ∈ buffer.pieces.dropLast, chars.head? ≠ some 81) ∧ Quiet client buffer := by
  have hkind : ∀ chars ∈ buffer.pieces.dropLast,
      (asked platform exrail chars = .quit ↔ chars.head? = some 81) ∧
        ((asked platform exrail chars).introduces = true ↔
          chars.head? = some 78 ∨ chars.take 2 = [72, 85]) := by
    intro chars hchars
    exact readLine_kind (.inl rfl)
      (reads_pieces hlines hlast chars (List.dropLast_subset _ hchars)).2
  have hquit : Action.quit ∉ (buffer.pieces.map (asked platform exrail)).dropLast ↔
      ∀ chars ∈ buffer.pieces.dropLast, chars.head? ≠ some 81 := by
    rw [← List.map_dropLast, List.mem_map, not_exists]
    refine forall_congr' fun chars => ?_
    rw [not_and]
    exact forall_congr' fun hchars => not_congr (hkind chars hchars).1
  have hintro : (∀ a ∈ (buffer.pieces.map (asked platform exrail)).dropLast, a.introduces = false) ↔
      ∀ chars ∈ buffer.pieces.dropLast, ¬ (chars.head? = some 78 ∨ chars.take 2 = [72, 85]) := by
    rw [← List.map_dropLast, List.forall_mem_map]
    refine forall_congr' fun chars => forall_congr' fun hchars => ?_
    rw [← (hkind chars hchars).2, Bool.not_eq_true]
  rw [Quiet, parse, parseLoop_buffer hlines hlast, parseEach_buffer hlines hlast, ← hquit, ← hintro]
  have hlength : (buffer.pieces.map (asked platform exrail)).length = buffer.pieces.length :=
    List.length_map _
  rw [← hlength]
  obtain ⟨a, actions, hactions⟩ :=
    List.exists_cons_of_ne_nil (mt List.map_eq_nil_iff.mp (@pieces_ne_nil buffer))
  rw [hactions, List.length_cons, Nat.add_eq_right, List.length_eq_zero_iff, ← steady_iff,
    ← performAll_eq_iff, performEach]
  cases performAll (some (metadata (client.getD .fresh)).1) (a :: actions) with
  | none => simp
  | some r => simp [Prod.ext_iff]

end Pieces

/-- The lines are read within their own characters, and one at a time they do the same. -/
theorem separable_quiet_iff (buffer : Buffer) :
    ((∀ line ∈ buffer.lines, (readLine platform exrail (line.chars ++ [line.stop])).isSome = true) ∧
      (readLine platform exrail (buffer.last ++ [0])).isSome = true ∧
        parse platform exrail client buffer.text = parseEach platform exrail client buffer.pieces) ↔
      Separable platform exrail buffer ∧ Quiet client buffer := by
  have hline : ∀ line : Line, (readLine platform exrail (line.chars ++ [line.stop])).isSome = true ↔
      Complete platform exrail false line.chars := by
    intro line
    have h0 : 0 ∉ line.chars := fun h => line.plain 0 h (.inl rfl)
    rw [(reads_line (.inr line.ends) h0).1, stop_ne_nul]
  have hlast : (readLine platform exrail (buffer.last ++ [0])).isSome = true ↔
      Complete platform exrail true buffer.last :=
    (reads_line (.inl rfl) fun h => buffer.plain 0 h (.inl rfl)).1
  simp only [hline, hlast]
  constructor
  · rintro ⟨hcomplete, hcompleteLast, heq⟩
    obtain ⟨hquit, hquiet⟩ := (parse_eq_iff hcomplete hcompleteLast).mp heq
    exact ⟨⟨hcomplete, hcompleteLast, hquit⟩, hquiet⟩
  · rintro ⟨h, hquiet⟩
    exact ⟨h.complete, h.completeLast,
      (parse_eq_iff h.complete h.completeLast).mpr ⟨h.quit, hquiet⟩⟩

/-- **Lines together and one at a time**: a line of a separable buffer is read within its own characters
and its end, whatever follows, and asks for what it asks for in a buffer of its own. One at a time the
lines have the same effects exactly if no metadata is due between them: it is sent in parts, one for
each call of `parse`. -/
theorem lines_independent (buffer : Buffer) (hseparable : Separable platform exrail buffer) :
    (∀ line ∈ buffer.lines, ∃ action,
      readLine platform exrail (line.chars ++ [line.stop]) = some action ∧
        readLine platform exrail (line.chars ++ [0]) = some action ∧
          ∀ rest, readLine platform exrail ((line.chars ++ [line.stop]) ++ rest) = some action) ∧
      (∃ action, readLine platform exrail (buffer.last ++ [0]) = some action) ∧
        (parse platform exrail client buffer.text = parseEach platform exrail client buffer.pieces ↔
          Quiet client buffer) := by
  refine ⟨fun line hline => ?_, ?_, ?_⟩
  · obtain ⟨hread, hread0⟩ := reads_line_asked line (hseparable.complete line hline)
    exact ⟨_, hread, hread0, fun rest => local_readLine exrail _ rest _ hread⟩
  · exact ⟨_, (reads_asked buffer.plain (.inl rfl) hseparable.completeLast).1⟩
  · rw [parse_eq_iff hseparable.complete hseparable.completeLast, and_iff_right hseparable.quit]

/-- The lines `*+` and `MTAL3<;>V50`. -/
theorem lines_independent_speed : ∃ buffer : Buffer,
    buffer.text = [42, 43, 10, 77, 84, 65, 76, 51, 60, 59, 62, 86, 53, 48, 10, 0] ∧
      Separable .avr true buffer ∧
        parse .avr true none buffer.text = parseEach .avr true none buffer.pieces := by
  refine ⟨⟨[⟨[42, 43], 10, by simp [End], .inl rfl⟩,
    ⟨[77, 84, 65, 76, 51, 60, 59, 62, 86, 53, 48], 10, by simp [End], .inl rfl⟩], [], by simp⟩, rfl, ?_⟩
  generalize hbuffer : Buffer.mk _ _ _ = buffer
  have hseparable : Separable .avr true buffer := by
    subst hbuffer
    exact ⟨by decide, by decide, by decide⟩
  have hquiet : Quiet none buffer := by
    subst hbuffer
    exact .inr (.inr ⟨rfl, by decide⟩)
  exact ⟨hseparable, (lines_independent buffer hseparable).2.2.mpr hquiet⟩

/-- After `HU` the turnouts are sent before the `N` that is in a buffer of its own. -/
theorem not_lines_independent : ¬ ∀ (platform : Platform) (exrail : Bool) (client : Option Sent)
    (buffer : Buffer),
    (∀ line ∈ buffer.lines, (readLine platform exrail (line.chars ++ [line.stop])).isSome = true) ∧
      (readLine platform exrail (buffer.last ++ [0])).isSome = true ∧
        parse platform exrail client buffer.text =
          parseEach platform exrail client buffer.pieces := by
  intro h
  have heq := (h .avr true none ⟨[⟨[72, 85], 10, by simp [End], .inl rfl⟩,
    ⟨[78], 10, by simp [End], .inl rfl⟩], [], by simp⟩).2.2
  revert heq
  decide

end Buffers

end CommandStation.WiThrottle
