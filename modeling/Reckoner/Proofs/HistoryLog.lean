/-
# The history is a log

Every statement that succeeds adds its value to the history, shown or not, and
no other does.  So the history is the log of these values, as far as there is
room for it, and a reference counts back in the log.  A clear empties the log
when its line is over; until then the line goes on counting in it.

One statement carries the argument: it adds to the history what it adds to the
log (`runStatement_keeps`).  The rest is an induction over the statements of a
line, which also says what every statement finds, and one over lines.
-/
import Reckoner.Proofs.Clearing

namespace Reckoner

namespace History

/-- A history of `capacity` places is what it has room for of a log, the most
recent value first. -/
structure Keeps (history : History) (capacity : Nat) (log : List Float) :
    Prop where
  capacity_eq : history.capacity = capacity
  entries_eq : history.entries = log.reverse.take capacity

namespace Keeps

variable {history : History} {capacity : Nat} {log : List Float}

theorem ofCapacity (capacity : Nat) :
    (History.ofCapacity capacity).Keeps capacity [] :=
  ⟨rfl, List.take_nil.symm⟩

theorem clear (keeps : history.Keeps capacity log) :
    history.clear.Keeps capacity [] :=
  ⟨keeps.capacity_eq, List.take_nil.symm⟩

theorem push (keeps : history.Keeps capacity log) (v : Float) :
    (history.push v).Keeps capacity (log ++ [v]) where
  capacity_eq := keeps.capacity_eq
  entries_eq := by
    show (v :: history.entries).take history.capacity = _
    rw [keeps.entries_eq, keeps.capacity_eq, List.reverse_concat]
    cases capacity with
    | zero => rfl
    | succ room =>
        rw [List.take_succ_cons, List.take_succ_cons, List.take_take,
          Nat.min_eq_left (Nat.le_succ room)]

theorem length_eq (keeps : history.Keeps capacity log) :
    history.length = min capacity log.length := by
  rw [length, keeps.entries_eq, List.length_take, List.length_reverse]

/-- Read from the oldest value on, the history is the end of the log. -/
theorem entries_reverse (keeps : history.Keeps capacity log) :
    history.entries.reverse =
      log.drop (log.length - min capacity log.length) := by
  rw [keeps.entries_eq, List.reverse_take, List.reverse_reverse,
    List.length_reverse]
  congr 1
  omega

/-- A reference counts back from the end of the log. -/
theorem recent?_eq (keeps : history.Keeps capacity log) {k : Nat}
    (positive : 1 ≤ k) (within : k ≤ min capacity log.length) :
    history.recent? k = log[log.length - k]? := by
  obtain ⟨back, rfl⟩ := Nat.exists_eq_add_of_le' positive
  have room : back < capacity := by omega
  have stored : back < log.length := by omega
  rw [recent?, keeps.entries_eq, List.getElem?_take_of_lt room,
    List.getElem?_reverse stored]
  congr 1
  omega

/-- Beyond the end there is nothing to refer to. -/
theorem recent?_eq_none (keeps : history.Keeps capacity log) {k : Nat}
    (outside : k = 0 ∨ min capacity log.length < k) :
    history.recent? k = none := by
  cases k with
  | zero => rfl
  | succ back =>
      have short : history.entries.length = min capacity log.length :=
        keeps.length_eq
      exact List.getElem?_eq_none (by omega)

end Keeps

end History

namespace Session

open History (Keeps)

/-! ## Statements -/

theorem runStatement_history (session : Session) (s : Cursor) :
    (session.runStatement s).session.context.history =
      match session.value? s with
      | some v => session.context.history.push v
      | none => session.context.history := by
  rcases (session.context.reply s).value_or_failure with
    ⟨v, after, rest, came⟩ | ⟨error, after, rest, came⟩
  · rw [runStatement_of_value came, value?_of_value came]
    cases rest.current.endsStatement with
    | true => rfl
    | false => rfl
  · rw [runStatement_of_failure came, value?_of_failure came]
    rfl

/-- A failed statement leaves the history as it is. -/
theorem runStatement_history_of_failed {session : Session} {s : Cursor}
    (failed : (session.runStatement s).outcome.isFailed = true) :
    (session.runStatement s).session.context.history =
      session.context.history := by
  rw [runStatement_history, value?_of_failed failed]

/-- A statement adds to the history what it adds to the log. -/
theorem runStatement_keeps {session : Session} {capacity : Nat}
    {log : List Float} (keeps : session.context.history.Keeps capacity log) (s : Cursor) :
    (session.runStatement s).session.context.history.Keeps capacity
      (log ++ (session.value? s).toList) := by
  rw [runStatement_history]
  cases session.value? s with
  | some v => exact keeps.push v
  | none =>
      rw [Option.toList_none, List.append_nil]
      exact keeps

/-! ## The statements of a line -/

/-- A statement and the session that it is run in. -/
structure Attempt where
  session : Session
  tokens : Cursor

/-- What becomes of the statement. -/
def Attempt.ran (attempt : Attempt) : Ran :=
  attempt.session.runStatement attempt.tokens

/-- The value that the statement yields if it succeeds. -/
def Attempt.value? (attempt : Attempt) : Option Float :=
  attempt.session.value? attempt.tokens

/-- The statements of a line that are run, in turn. -/
def attempts (session : Session) (s : Cursor) : List Attempt :=
  match s with
  | [] => []
  | token :: tail =>
    if token = .finish then []
    else if token = .separator then session.attempts tail
    else
      let ran := session.runStatement (token :: tail)
      ⟨session, token :: tail⟩ ::
        if ran.outcome.isFailed then [] else ran.session.attempts ran.rest
termination_by s.length
decreasing_by
  · exact Nat.lt_succ_self _
  · rename_i no_finish no_separator succeeds
    exact runStatement_rest_lt
      (Token.begins_of_ne no_separator no_finish)
      (Bool.eq_false_iff.mpr succeeds)

theorem attempts_nil (session : Session) : session.attempts [] = [] := by
  rw [attempts]

theorem attempts_finish (session : Session) (rest : Cursor) :
    session.attempts (.finish :: rest) = [] := by
  rw [attempts, if_pos rfl]

theorem attempts_separator (session : Session) (tail : Cursor) :
    session.attempts (.separator :: tail) = session.attempts tail := by
  rw [attempts, if_neg (by decide), if_pos rfl]

theorem attempts_failed {session : Session} {token : Token} {tail : Cursor}
    (begins : token.endsStatement = false)
    (failed : (session.runStatement (token :: tail)).outcome.isFailed = true) :
    session.attempts (token :: tail) = [⟨session, token :: tail⟩] := by
  obtain ⟨no_separator, no_finish⟩ := Token.ne_of_begins begins
  rw [attempts, if_neg no_finish, if_neg no_separator]
  simp only [failed, if_true]

theorem attempts_succeeded {session : Session} {token : Token}
    {tail : Cursor} (begins : token.endsStatement = false)
    (succeeded :
      (session.runStatement (token :: tail)).outcome.isFailed = false) :
    session.attempts (token :: tail) =
      let ran := session.runStatement (token :: tail)
      ⟨session, token :: tail⟩ :: ran.session.attempts ran.rest := by
  obtain ⟨no_separator, no_finish⟩ := Token.ne_of_begins begins
  rw [attempts, if_neg no_finish, if_neg no_separator]
  simp only [succeeded, Bool.false_eq_true, if_false]

theorem runStatements_outcomes (session : Session) (s : Cursor) :
    (session.runStatements s).1 =
      (session.attempts s).map fun attempt => attempt.ran.outcome := by
  induction session, s using runStatements_induction with
  | nil session => rw [runStatements_nil, attempts_nil, List.map_nil]
  | finish session rest =>
      rw [runStatements_finish, attempts_finish, List.map_nil]
  | separator session tail ih =>
      rw [runStatements_separator, attempts_separator, ih]
  | failed session token tail begins failed =>
      rw [runStatements_failed begins failed, attempts_failed begins failed]
      rfl
  | succeeded session token tail begins succeeded ih =>
      rw [runStatements_succeeded begins succeeded,
        attempts_succeeded begins succeeded]
      simp only [ih, List.map_cons, Attempt.ran]

/-- A line adds the values of its statements to the log, and every statement
finds those of the statements before it. -/
theorem runStatements_keeps {session : Session} {capacity : Nat}
    {log : List Float} (keeps : session.context.history.Keeps capacity log) (s : Cursor) :
    (session.runStatements s).2.context.history.Keeps capacity
        (log ++ (session.attempts s).filterMap Attempt.value?) ∧
      ∀ (i : Nat) (attempt : Attempt),
        (session.attempts s)[i]? = some attempt →
          attempt.session.context.history.Keeps capacity
            (log ++ ((session.attempts s).take i).filterMap
              Attempt.value?) := by
  induction session, s using runStatements_induction generalizing log with
  | nil session =>
      rw [runStatements_nil, attempts_nil, List.filterMap_nil, List.append_nil]
      exact ⟨keeps, fun i attempt among => by simp at among⟩
  | finish session rest =>
      rw [runStatements_finish, attempts_finish, List.filterMap_nil,
        List.append_nil]
      exact ⟨keeps, fun i attempt among => by simp at among⟩
  | separator session tail ih =>
      rw [runStatements_separator, attempts_separator]
      exact ih keeps
  | failed session token tail begins failed =>
      have ran := runStatement_keeps keeps (token :: tail)
      have nothing := value?_of_failed failed
      rw [runStatements_failed begins failed, attempts_failed begins failed]
      constructor
      · simp only [fail, List.filterMap_cons, Attempt.value?, nothing,
          List.filterMap_nil, Option.toList_none] at ran ⊢
        exact ran
      · intro i attempt among
        cases i with
        | zero =>
            obtain rfl := Option.some.inj among
            simpa using keeps
        | succ i => simp at among
  | succeeded session token tail begins succeeded ih =>
      obtain ⟨behind, each⟩ := ih (runStatement_keeps keeps (token :: tail))
      -- the value of the first statement is in the log of all behind it
      have first (others : List Attempt) :
          log ++ (⟨session, token :: tail⟩ :: others).filterMap
              Attempt.value? =
            log ++ (session.value? (token :: tail)).toList ++
              others.filterMap Attempt.value? := by
        rw [List.append_assoc, List.filterMap_cons, Attempt.value?]
        cases session.value? (token :: tail) with
        | some v => rfl
        | none => rfl
      rw [runStatements_succeeded begins succeeded,
        attempts_succeeded begins succeeded]
      constructor
      · simp only [first]
        exact behind
      · intro i attempt among
        cases i with
        | zero =>
            obtain rfl := Option.some.inj among
            simpa using keeps
        | succ i =>
            simp only [List.take_succ_cons, first]
            exact each i attempt among

/-! ## Lines -/

/-- The statements of a line of source text that are run. -/
def lineAttempts (session : Session) (line : String) : List Attempt :=
  match tokenize line with
  | .ok tokens => session.attempts tokens
  | .error _ => []

/-- The values of the successful statements of a line. -/
def yields (session : Session) (line : String) : List Float :=
  (session.lineAttempts line).filterMap Attempt.value?

/-- The values of the successful statements of the lines behind the last one
that asked for a clear. -/
def log (session : Session) (lines : List String) : List Float :=
  ((session.passage lines).rtakeWhile fun run => !run.requests.clear).flatMap
    fun run => run.session.yields run.line

theorem log_concat (session : Session) (lines : List String)
    (line : String) :
    session.log (lines ++ [line]) =
      if ((session.runLines lines).2.requested line).clear then []
      else session.log lines ++ (session.runLines lines).2.yields line := by
  rw [log, passage_concat, List.rtakeWhile_concat]
  by_cases clears :
      ((session.runLines lines).2.requested line).clear = true
  · simp [LineRun.requests, clears]
  · simp [log, LineRun.requests, clears]

/-- The outcomes of a line are those of its statements. -/
theorem lineAttempts_outcome {session : Session} {line : String} {i : Nat}
    {attempt : Attempt}
    (among : (session.lineAttempts line)[i]? = some attempt) :
    (session.runLine line).1[i]? = some attempt.ran.outcome := by
  unfold lineAttempts at among
  cases cut : tokenize line with
  | error cause => simp [cut] at among
  | ok tokens =>
      simp only [cut] at among
      rw [runLine_ok cut, runStatements_outcomes, List.getElem?_map, among]
      rfl

/-- Every statement of a line finds what the log has come to before it. -/
theorem lineAttempts_keeps {session : Session} {capacity : Nat}
    {log : List Float} (keeps : session.context.history.Keeps capacity log)
    {line : String} {i : Nat} {attempt : Attempt}
    (among : (session.lineAttempts line)[i]? = some attempt) :
    attempt.session.context.history.Keeps capacity
      (log ++
        ((session.lineAttempts line).take i).filterMap Attempt.value?) := by
  unfold lineAttempts at among ⊢
  cases cut : tokenize line with
  | error cause => simp [cut] at among
  | ok tokens =>
      simp only [cut] at among ⊢
      exact (runStatements_keeps keeps tokens).2 i attempt among

/-- A line adds its values to the log or, with a clear, empties it. -/
theorem runLine_keeps {session : Session} {capacity : Nat}
    {log : List Float} (idle : session.context.requests = .none)
    (keeps : session.context.history.Keeps capacity log) (line : String) :
    (session.runLine line).2.context.history.Keeps capacity
      (if (session.requested line).clear then []
      else log ++ session.yields line) := by
  cases cut : tokenize line with
  | error cause =>
      have stays : (session.requested line).clear = false := by
        simp only [requested, cut, idle]
        rfl
      rw [runLine_error cut, stays]
      simpa [yields, lineAttempts, cut, fail] using keeps
  | ok tokens =>
      have ran := (runStatements_keeps keeps tokens).1
      rw [runLine_ok cut]
      simp only [requested, yields, lineAttempts, cut]
      cases clear :
          (session.runStatements tokens).2.context.requests.clear with
      | true =>
          simp only [applyRequests_of_clear clear, if_true]
          exact ran.clear
      | false =>
          simp only [applyRequests, clear]
          exact ran

theorem runLines_keeps (settings : Settings) (lines : List String) :
    ((ofSettings settings).runLines lines).2.context.history.Keeps
      settings.capacity ((ofSettings settings).log lines) := by
  induction lines using List.reverseRecOn with
  | nil => exact .ofCapacity _
  | append_singleton lines line ih =>
      rw [runLines_concat, log_concat]
      exact runLine_keeps (runLines_requests rfl lines) ih line

/-- **The history is the log of the successes, as far as there is room.**
After any lines the stored results are the last values of the log, in their
order.  In a statement of a further line, each with its own outcome of the line,
the log counts the statements before it on that line as well.  Wherever a
reference is evaluated there it counts back in this log, and it fails outside
of what is stored.  A failed statement adds nothing. -/
theorem history_eq_log (settings : Settings) (lines : List String) :
    let session := ((ofSettings settings).runLines lines).2
    let log := (ofSettings settings).log lines
    session.context.history.entries.reverse =
        log.drop (log.length - min settings.capacity log.length) ∧
      ∀ (line : String) (i : Nat) (attempt : Attempt),
        (session.lineAttempts line)[i]? = some attempt →
        let log := log ++
          ((session.lineAttempts line).take i).filterMap Attempt.value?
        let reach := min settings.capacity log.length
        (session.runLine line).1[i]? = some attempt.ran.outcome ∧
        (attempt.ran.outcome.isFailed = true →
          attempt.ran.session.context.history =
            attempt.session.context.history) ∧
        ∀ (k : Nat) (effects : Effects) (tail : Cursor),
          let reply := attempt.session.context.toEnvironment.reply .primary
            effects (.reference k :: tail)
          (1 ≤ k → k ≤ reach → ∃ v, log[log.length - k]? = some v ∧
            reply = .value v effects tail) ∧
          (k = 0 ∨ reach < k →
            reply = .failure (.historyOutOfRange k reach) effects
              (.reference k :: tail)) := by
  intro session log
  have keeps := runLines_keeps settings lines
  refine ⟨keeps.entries_reverse, ?_⟩
  intro line i attempt among log reach
  refine ⟨lineAttempts_outcome among, runStatement_history_of_failed, ?_⟩
  have found : attempt.session.context.history.Keeps settings.capacity log :=
    lineAttempts_keeps keeps among
  intro k effects tail reply
  simp only [reply, Environment.reply_reference]
  constructor
  · intro positive within
    have stored : log.length - k < log.length := by omega
    refine ⟨log[log.length - k], List.getElem?_eq_getElem stored, ?_⟩
    rw [found.recent?_eq positive within, List.getElem?_eq_getElem stored]
  · intro outside
    rw [found.recent?_eq_none outside, found.length_eq]

theorem history_eq_log_bounded :
    let fresh := ofSettings { capacity := 2 }
    let lines := ["4; clear; 5", "6; 7; (", "clear(", "8"]
    let session := (fresh.runLines lines).2
    ∃ attempt, (session.lineAttempts "9; 1 + $2")[1]? = some attempt ∧
      ∀ (effects : Effects) (tail : Cursor),
        let reply (k : Nat) := attempt.session.context.toEnvironment.reply
          .primary effects (.reference k :: tail)
        reply 2 = .value 8 effects tail ∧
          reply 3 = .failure (.historyOutOfRange 3 2) effects
            (.reference 3 :: tail) := by
  intro fresh lines session
  have two : 1 < (session.lineAttempts "9; 1 + $2").length := by
    decide +kernel
  have log : fresh.log lines ++
      ((session.lineAttempts "9; 1 + $2").take 1).filterMap Attempt.value? =
        [8, 9] := by decide +kernel
  have here := List.getElem?_eq_getElem two
  refine ⟨_, here, fun effects tail => ?_⟩
  have recalls := ((history_eq_log { capacity := 2 } lines).2 _ 1 _ here).2.2
  simp only [session, fresh] at log
  simp only [log] at recalls
  constructor
  · obtain ⟨v, second, came⟩ :=
      (recalls 2 effects tail).1 (by decide) (by decide)
    obtain rfl : 8 = v := Option.some.inj second
    exact came
  · exact (recalls 3 effects tail).2 (Or.inr (by decide))

end Session

end Reckoner
