import CommandStation.Lib.Run
import CommandStation.Railcom.Basic
import Mathlib.Data.List.Nodup

/-!
# Replies to reads on the main track

The requests are numbered, and the callback of a request is known by its number. `Watched` records
the requests and the calls of callbacks, with the record and the time that led to them.
-/

namespace CommandStation.Railcom

open CommandStation.Lib

structure Request where
  loco : UInt16
  cv : UInt16
  time : UInt32
  deriving DecidableEq, Repr

/-- A call of the callback of a request. A call from `process` comes with the record and the time
at which it was processed. -/
structure Invocation where
  request : Nat
  value : Int16
  reply : Option (CvValue × UInt32)
  deriving DecidableEq, Repr

structure Watched where
  railcom : Railcom Nat
  requests : List Request
  log : List Invocation

def Watched.init : Watched := ⟨Railcom.init, [], []⟩

/-- What happens to Railcom: a request, a buffer, a look at the clock. -/
inductive Event where
  | anticipate (loco cv : UInt16) (now : UInt32)
  | process (buffer : Buffer) (turns : Nat) (now : UInt32)
  | loop (now : UInt32)

def step (w : Watched) : Event → Watched
  | .anticipate loco cv now => { w with
      railcom := Railcom.anticipate loco cv now w.requests.length
      requests := w.requests ++ [⟨loco, cv, now⟩] }
  | .process buffer turns now =>
    let (railcom, called) := w.railcom.process buffer turns
    { w with
      railcom := railcom
      log := w.log ++ called.map fun (k, r) => ⟨k, r.value.toUInt16.toInt16, some (r, now)⟩ }
  | .loop now =>
    let (railcom, called) := w.railcom.loop now
    { w with railcom := railcom, log := w.log ++ called.toList.map fun k => ⟨k, -1, none⟩ }

/-- The record answers the request: it is complete, has its loco and its CV, and comes in time. -/
def Answers (r : CvValue) (now : UInt32) (request : Request) : Prop :=
  r.loco = request.loco ∧ r.cv = request.cv ∧ r.complete = true ∧
    now - request.time ≤ pomReadTimeout

instance (r : CvValue) (now : UInt32) (request : Request) : Decidable (Answers r now request) :=
  inferInstanceAs (Decidable (_ ∧ _))

/-- The call gives -1, or the value of a record that answers the request. -/
def Invocation.Right (requests : List Request) (call : Invocation) : Prop :=
  call.value = -1 ∨ ∃ request ∈ requests[call.request]?, ∃ reply ∈ call.reply,
    Answers reply.1 reply.2 request

instance (requests : List Request) (call : Invocation) : Decidable (call.Right requests) :=
  inferInstanceAs (Decidable (_ ∨ _))

/-- While a request waits, the first CV record that a buffer brings answers it. -/
def Fair (w : Watched) : Event → Prop
  | .process buffer turns now => ∀ r, buffer.firstCvValue turns 0 = some r →
      w.railcom.expectCallback.isSome →
      Answers r now ⟨w.railcom.expectLoco, w.railcom.expectCV, w.railcom.expectWait⟩
  | _ => True

/-! ## The invariant -/

/-- The callback that is kept is that of a request that was not called yet, and it is kept with the
data of this request. -/
structure Tracked (w : Watched) : Prop where
  waiting : ∀ k, w.railcom.expectCallback = some k → k ∉ w.log.map Invocation.request ∧
    w.requests[k]? = some ⟨w.railcom.expectLoco, w.railcom.expectCV, w.railcom.expectWait⟩
  known : ∀ call ∈ w.log, call.request < w.requests.length
  once : (w.log.map Invocation.request).Nodup

theorem tracked_init : Tracked Watched.init :=
  ⟨nofun, by simp [Watched.init], List.nodup_nil⟩

variable {w : Watched}

/-- The callback that waits is called, and given up. -/
theorem Tracked.call (h : Tracked w) {k : Nat} (hk : w.railcom.expectCallback = some k)
    (value : Int16) (reply : Option (CvValue × UInt32)) :
    Tracked { w with
      railcom := { w.railcom with expectCallback := none }
      log := w.log ++ [⟨k, value, reply⟩] } := by
  obtain ⟨hnew, hrequest⟩ := h.waiting k hk
  refine ⟨nofun, ?_, ?_⟩
  · intro call hcall
    obtain hcall | hcall := List.mem_append.mp hcall
    · exact h.known call hcall
    · obtain rfl := List.mem_singleton.mp hcall
      exact (List.getElem?_eq_some_iff.mp hrequest).1
  · simp only [List.map_append, List.map_cons, List.map_nil]
    refine List.nodup_append.mpr ⟨h.once, List.nodup_singleton k, fun a ha b hb => ?_⟩
    obtain rfl := List.mem_singleton.mp hb
    exact fun heq => hnew (heq ▸ ha)

/-- The callback that is kept stays that of the last request, over any event. -/
theorem Tracked.step (h : Tracked w) (e : Event) : Tracked (step w e) := by
  cases e with
  | anticipate loco cv now =>
    refine ⟨?_, ?_, h.once⟩
    · intro k hk
      obtain rfl : w.requests.length = k := Option.some.inj hk
      refine ⟨fun hin => ?_, by simp [Railcom.step, Railcom.anticipate]⟩
      obtain ⟨call, hcall, heq⟩ := List.mem_map.mp hin
      have hlt := h.known call hcall
      omega
    · intro call hcall
      have hlt := h.known call hcall
      simp only [Railcom.step, List.length_append, List.length_singleton]
      omega
  | process buffer turns now =>
    simp only [Railcom.step, Railcom.process, processFrom_eq]
    cases hfirst : buffer.firstCvValue turns 0 with
    | none => simpa using h
    | some r =>
      cases hk : w.railcom.expectCallback with
      | none => exact ⟨nofun, by simpa using h.known, by simpa using h.once⟩
      | some k => exact h.call hk _ _
  | loop now =>
    simp only [Railcom.step, Railcom.loop]
    by_cases hlate : w.railcom.expectCallback.isSome ∧ pomReadTimeout < now - w.railcom.expectWait
    · obtain ⟨k, hk⟩ := Option.isSome_iff_exists.mp hlate.1
      rw [if_pos hlate, hk]
      exact h.call hk _ _
    · rw [if_neg hlate]
      simpa using h

/-! ## Right calls -/

/-- A call is judged by its own request, later ones do not matter. -/
theorem right_concat {requests : List Request} {call : Invocation}
    (hlt : call.request < requests.length) (request : Request) :
    call.Right (requests ++ [request]) ↔ call.Right requests := by
  unfold Invocation.Right
  rw [List.getElem?_append_left hlt]

/-- The value of a record is never -1. -/
theorem value_ne (value : UInt8) : value.toUInt16.toInt16 ≠ -1 := by
  have hall : ∀ n < 256, (UInt8.ofNat n).toUInt16.toInt16 ≠ -1 := by decide +kernel
  have hvalue := hall value.toNat value.toNat_lt
  rwa [UInt8.ofNat_toNat] at hvalue

/-- One more step keeps all calls right exactly when it is fair. -/
theorem right_step_iff (h : Tracked w) (e : Event) :
    (∀ call ∈ (step w e).log, call.Right (step w e).requests) ↔
      (∀ call ∈ w.log, call.Right w.requests) ∧ Fair w e := by
  cases e with
  | anticipate loco cv now =>
    simp only [step, Fair, and_true]
    constructor
    · exact fun hright call hcall => (right_concat (h.known call hcall) _).mp (hright call hcall)
    · exact fun hright call hcall => (right_concat (h.known call hcall) _).mpr (hright call hcall)
  | process buffer turns now =>
    simp only [step, process, processFrom_eq, Fair]
    cases hfirst : buffer.firstCvValue turns 0 with
    | none => simp
    | some r =>
      cases hk : w.railcom.expectCallback with
      | none => simp
      | some k =>
        have hrequest := (h.waiting k hk).2
        simp only [Option.toList_some, List.map_cons, List.map_nil, List.forall_mem_append,
          List.forall_mem_singleton, Option.isSome_some, forall_const, Option.some.injEq,
          forall_eq']
        refine and_congr_right fun _ => ?_
        simp [Invocation.Right, value_ne, hrequest]
  | loop now =>
    simp only [step, loop, Fair, and_true]
    by_cases hlate : w.railcom.expectCallback.isSome ∧ pomReadTimeout < now - w.railcom.expectWait
    · obtain ⟨k, hk⟩ := Option.isSome_iff_exists.mp hlate.1
      rw [if_pos hlate, hk]
      simp only [Option.toList_some, List.map_cons, List.map_nil, List.forall_mem_append,
        List.forall_mem_singleton]
      exact and_iff_left (.inl rfl)
    · rw [if_neg hlate]
      simp

theorem right_run_iff (h : Tracked w) (events : List Event) :
    (∀ call ∈ (run step w events).log, call.Right (run step w events).requests) ↔
      (∀ call ∈ w.log, call.Right w.requests) ∧ Along step Fair w events := by
  induction events generalizing w with
  | nil => simp [Along]
  | cons e events ih =>
    rw [run_cons, ih (h.step e), right_step_iff h, Along, and_assoc]

/-- **Replies to requests.** In every run each request is called back at most once, and the calls
with a value are for records that answer their request exactly when every CV record that comes
while a request waits does answer it. -/
theorem replies_right_iff (events : List Event) :
    ((run step Watched.init events).log.map Invocation.request).Nodup ∧
      ((∀ call ∈ (run step Watched.init events).log,
          call.Right (run step Watched.init events).requests) ↔
        Along step Fair Watched.init events) := by
  have htracked : Tracked (run step Watched.init events) :=
    inv_run_of_step Tracked (fun _ e h => h.step e) tracked_init events
  refine ⟨htracked.once, ?_⟩
  rw [right_run_iff tracked_init]
  exact and_iff_right fun call hcall => by cases hcall

/-- Loco 4 answers for its CV 9 while loco 3 is asked for its CV 8. -/
def otherLoco : List Event :=
  [.anticipate 3 8 0, .process ⟨fun i => [0x40, 0, 4, 0, 9, 77].getD i 0, 6⟩ 1 10]

/-- The value of the other loco is taken for the answer. -/
theorem other_loco_answers :
    (run step Watched.init otherLoco).log =
      [⟨0, 77, some (⟨4, 9, 77, true⟩, 10)⟩] ∧
    ¬ ∀ call ∈ (run step Watched.init otherLoco).log,
      call.Right (run step Watched.init otherLoco).requests := by
  decide

end CommandStation.Railcom
