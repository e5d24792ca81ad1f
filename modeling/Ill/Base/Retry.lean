import Mathlib.Data.List.Forall2

/-!
# Retrying an attempt inside a deadline

The environment's side of a retry loop is a finite script: what each look at
the clock and each attempt turned out to be. `retry` is the loop itself. A
failure it returns is the timeout failure, the last transient one, or the
first permanent one. A script can be read off the rounds of the loop, each with
the clock at its start; two loops that retry the same failures go through the
same rounds alike.
-/

namespace Ill.Base

universe u v w

/-- One run of the environment under a retry loop. -/
inductive Attempts (Accepted : Type u) (Failed : Type v) where
  | deadlinePassed
  | timedOut
  | accepted (result : Accepted)
  | failed (error : Failed) (next : Attempts Accepted Failed)

section Retry

variable {Accepted : Type u} {Failed : Type v} {Outcome : Type w}

/-- Attempt until one is accepted, one fails permanently or the time is up.
`last` is the most recent transient outcome. -/
def retry (classify : Failed → Outcome) (transient : Outcome → Bool) (timeout : Outcome)
    (last : Option Outcome) : Attempts Accepted Failed → Except Outcome Accepted
  | .deadlinePassed => .error (last.getD timeout)
  | .timedOut => .error timeout
  | .accepted result => .ok result
  | .failed error next =>
    if transient (classify error) then
      retry classify transient timeout (some (classify error)) next
    else .error (classify error)

variable {classify : Failed → Outcome} {transient : Outcome → Bool} {timeout : Outcome}

/-- What holds of the timeout failure and of every classified failure holds of
the failure a retry loop returns. -/
theorem retry_error (property : Outcome → Prop) (onTimeout : property timeout)
    (onFailure : ∀ error, property (classify error)) {last : Option Outcome}
    (onLast : ∀ outcome, last = some outcome → property outcome)
    {attempts : Attempts Accepted Failed} {outcome : Outcome}
    (failed : retry classify transient timeout last attempts = .error outcome) :
    property outcome := by
  induction attempts generalizing last with
  | deadlinePassed =>
    cases last with
    | none => exact Except.error.inj failed ▸ onTimeout
    | some outcome => exact Except.error.inj failed ▸ onLast outcome rfl
  | timedOut => exact Except.error.inj failed ▸ onTimeout
  | accepted result => simp [retry] at failed
  | failed error next ih =>
    rw [retry] at failed
    split at failed
    · refine ih (fun other same => ?_) failed
      exact Option.some.inj same ▸ onFailure error
    · exact Except.error.inj failed ▸ onFailure error

end Retry

/-! ## Rounds -/

/-- One round of the loop: the clock at its start, and what an attempt comes to
in the time that remains. An attempt without a reply is cut off. -/
structure Round (Accepted : Type u) (Failed : Type v) where
  now : Nat
  reply : Option (Except Failed Accepted)

section Rounds

variable {Accepted : Type u} {Failed : Type v} {Outcome : Type w}

/-- What the loop meets in some rounds before a deadline. The deadline has
passed by the time there are no more. -/
def Attempts.ofRounds (deadline : Nat) : List (Round Accepted Failed) → Attempts Accepted Failed
  | [] => .deadlinePassed
  | round :: rest =>
    if deadline - round.now = 0 then .deadlinePassed
    else
      match round.reply with
      | none => .timedOut
      | some (.ok result) => .accepted result
      | some (.error error) => .failed error (ofRounds deadline rest)

variable (classify : Failed → Outcome) (transient : Outcome → Bool) (deadline : Nat)

/-- The rounds in which the loop makes an attempt. -/
def attemptsMade : List (Round Accepted Failed) → List (Round Accepted Failed)
  | [] => []
  | round :: rest =>
    if deadline - round.now = 0 then []
    else
      match round.reply with
      | some (.error error) =>
        if transient (classify error) then round :: attemptsMade rest else [round]
      | _ => [round]

/-- The outcome of a round whose attempt failed. -/
def Round.failure (round : Round Accepted Failed) : Option Outcome :=
  match round.reply with
  | some (.error error) => some (classify error)
  | _ => none

/-- An attempt was made in time and failed in a way that is worth another one. -/
def Round.Retried (round : Round Accepted Failed) : Prop :=
  round.now < deadline ∧ ∃ error, round.reply = some (.error error) ∧ transient (classify error) = true

/-- How a loop goes through some rounds: the attempts it makes and what it
returns. Every attempt but the last one is retried. -/
inductive Course (timeout : Outcome) :
    List (Round Accepted Failed) → List (Round Accepted Failed) → Except Outcome Accepted → Prop where
  | accepted {before rest : List (Round Accepted Failed)} {now : Nat} {result : Accepted}
    (earlier : ∀ round ∈ before, round.Retried classify transient deadline) (inTime : now < deadline) :
    Course timeout (before ++ ⟨now, some (.ok result)⟩ :: rest)
      (before ++ [⟨now, some (.ok result)⟩]) (.ok result)
  | refused {before rest : List (Round Accepted Failed)} {now : Nat} {error : Failed}
    (earlier : ∀ round ∈ before, round.Retried classify transient deadline) (inTime : now < deadline)
    (permanent : transient (classify error) = false) :
    Course timeout (before ++ ⟨now, some (.error error)⟩ :: rest)
      (before ++ [⟨now, some (.error error)⟩]) (.error (classify error))
  | cutOff {before rest : List (Round Accepted Failed)} {now : Nat}
    (earlier : ∀ round ∈ before, round.Retried classify transient deadline) (inTime : now < deadline) :
    Course timeout (before ++ ⟨now, none⟩ :: rest) (before ++ [⟨now, none⟩]) (.error timeout)
  | exhausted {before rest : List (Round Accepted Failed)}
    (earlier : ∀ round ∈ before, round.Retried classify transient deadline)
    (late : ∀ round ∈ rest.head?, deadline ≤ round.now) :
    Course timeout (before ++ rest) before
      (.error ((before.getLast?.bind (Round.failure classify)).getD timeout))

variable {classify transient deadline} {timeout : Outcome}

/-- A loop that has retried some rounds goes on through the others. -/
theorem retry_course_from {past rounds : List (Round Accepted Failed)}
    (earlier : ∀ round ∈ past, round.Retried classify transient deadline) :
    Course classify transient deadline timeout (past ++ rounds)
      (past ++ attemptsMade classify transient deadline rounds)
      (retry classify transient timeout (past.getLast?.bind (Round.failure classify))
        (.ofRounds deadline rounds)) := by
  induction rounds generalizing past with
  | nil =>
    rw [attemptsMade, Attempts.ofRounds, retry, List.append_nil]
    have late : ∀ round ∈ ([] : List (Round Accepted Failed)).head?, deadline ≤ round.now := by simp
    have whole : Course classify transient deadline timeout (past ++ []) _ _ :=
      .exhausted earlier late
    rwa [List.append_nil] at whole
  | cons round rest ih =>
    obtain ⟨now, reply⟩ := round
    rw [attemptsMade, Attempts.ofRounds]
    by_cases late : deadline - now = 0
    · rw [if_pos late, if_pos late, retry, List.append_nil]
      refine .exhausted earlier ?_
      simp
      omega
    · have inTime : now < deadline := by omega
      rw [if_neg late, if_neg late]
      cases reply with
      | none => exact .cutOff earlier inTime
      | some reply =>
        cases reply with
        | ok result => exact .accepted earlier inTime
        | error error =>
          dsimp only
          rw [retry]
          by_cases again : transient (classify error) = true
          · rw [if_pos again, if_pos again]
            have grown : ∀ round ∈ past ++ [⟨now, some (.error error)⟩],
                round.Retried classify transient deadline := by
              intro round member
              rcases List.mem_append.mp member with old | new
              · exact earlier round old
              · rw [List.mem_singleton.mp new]
                exact ⟨inTime, error, rfl, again⟩
            have onward := ih grown
            rw [List.getLast?_append, List.append_assoc, List.append_assoc] at onward
            exact onward
          · rw [if_neg again, if_neg again]
            exact .refused earlier inTime (by simpa using again)

/-- How a loop goes through the rounds it meets. -/
theorem retry_course (rounds : List (Round Accepted Failed)) :
    Course classify transient deadline timeout rounds
      (attemptsMade classify transient deadline rounds)
      (retry classify transient timeout none (.ofRounds deadline rounds)) := by
  have begun : ∀ round ∈ ([] : List (Round Accepted Failed)),
      round.Retried classify transient deadline := by simp
  exact retry_course_from begun

end Rounds

/-! ## Two loops side by side -/

section Parallel

variable {Accepted : Type u} {Failed : Type v} {Outcome : Type w}
  {Accepted' : Type u} {Failed' : Type v} {Outcome' : Type w}

/-- Two rounds at the same time whose attempts come to the same. -/
inductive Parallel (same : Failed → Failed' → Prop) :
    Round Accepted Failed → Round Accepted' Failed' → Prop where
  | cutOff (now : Nat) : Parallel same ⟨now, none⟩ ⟨now, none⟩
  | accepted (now : Nat) (result : Accepted) (other : Accepted') :
    Parallel same ⟨now, some (.ok result)⟩ ⟨now, some (.ok other)⟩
  | failed {error : Failed} {other : Failed'} (now : Nat) (alike : same error other) :
    Parallel same ⟨now, some (.error error)⟩ ⟨now, some (.error other)⟩

/-- Two results of the same kind: both accepted, both out of time, or the
outcomes of failures that are the same. -/
inductive SameResult (same : Failed → Failed' → Prop) (classify : Failed → Outcome)
    (classify' : Failed' → Outcome') (timeout : Outcome) (timeout' : Outcome') :
    Except Outcome Accepted → Except Outcome' Accepted' → Prop where
  | accepted (result : Accepted) (other : Accepted') :
    SameResult same classify classify' timeout timeout' (.ok result) (.ok other)
  | outOfTime : SameResult same classify classify' timeout timeout' (.error timeout) (.error timeout')
  | failed {error : Failed} {other : Failed'} (alike : same error other) :
    SameResult same classify classify' timeout timeout' (.error (classify error))
      (.error (classify' other))

variable {same : Failed → Failed' → Prop} {classify : Failed → Outcome}
  {classify' : Failed' → Outcome'} {transient : Outcome → Bool} {transient' : Outcome' → Bool}
  {timeout : Outcome} {timeout' : Outcome'}

theorem Parallel.now_eq {round : Round Accepted Failed} {other : Round Accepted' Failed'}
    (parallel : Parallel same round other) : round.now = other.now := by
  cases parallel <;> rfl

/-- Loops that retry the same failures make the same attempts. -/
theorem attemptsMade_parallel
    (alike : ∀ error other, same error other →
      transient (classify error) = transient' (classify' other))
    (deadline : Nat) {rounds : List (Round Accepted Failed)} {others : List (Round Accepted' Failed')}
    (parallel : List.Forall₂ (Parallel same) rounds others) :
    List.Forall₂ (Parallel same) (attemptsMade classify transient deadline rounds)
      (attemptsMade classify' transient' deadline others) := by
  induction parallel with
  | nil => exact .nil
  | cons first _ ih =>
    rw [attemptsMade, attemptsMade, first.now_eq]
    split
    · exact .nil
    · cases first with
      | cutOff now => exact .cons (.cutOff now) .nil
      | accepted now result other => exact .cons (.accepted now result other) .nil
      | failed now kind =>
        dsimp only
        rw [alike _ _ kind]
        split
        · exact .cons (.failed now kind) ih
        · exact .cons (.failed now kind) .nil

/-- Loops that retry the same failures return the same kind of result. -/
theorem retry_parallel
    (alike : ∀ error other, same error other →
      transient (classify error) = transient' (classify' other))
    (deadline : Nat) {rounds : List (Round Accepted Failed)} {others : List (Round Accepted' Failed')}
    (parallel : List.Forall₂ (Parallel same) rounds others) {last : Option Outcome}
    {last' : Option Outcome'}
    (latest : SameResult same classify classify' timeout timeout'
      (.error (last.getD timeout) : Except Outcome Accepted)
      (.error (last'.getD timeout') : Except Outcome' Accepted')) :
    SameResult same classify classify' timeout timeout'
      (retry classify transient timeout last (.ofRounds deadline rounds))
      (retry classify' transient' timeout' last' (.ofRounds deadline others)) := by
  induction parallel generalizing last last' with
  | nil => exact latest
  | cons first _ ih =>
    rw [Attempts.ofRounds, Attempts.ofRounds, first.now_eq]
    split
    · exact latest
    · cases first with
      | cutOff now => exact .outOfTime
      | accepted now result other => exact .accepted result other
      | failed now kind =>
        dsimp only
        rw [retry, retry, alike _ _ kind]
        split
        · exact ih (.failed kind)
        · exact .failed kind

end Parallel

end Ill.Base
