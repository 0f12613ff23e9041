/-
# Lines joined by a line break

A source `a`, a line break and a source `b` make one line.  Running it is
running `a` and then `b`, unless `a` fails: then nothing of `b` is run.

Two differences have to be bridged.  Inside the joined line the statements of
`a` meet a separator where `a` alone meets a `finish`; that changes nothing
but the token that an error shows.  And the statements of `b` begin with the
requests of `a` still pending, where alone they begin with none.  Without a
clear among them that is a wish to end at most, and it changes nothing as long
as modifiers keep it.  One that takes it back would make a difference: line by
line it comes too late.
-/
import Reckoner.Proofs.LineBreak
import Reckoner.Proofs.Statements
import Reckoner.Proofs.Transfer

namespace Reckoner

/-! ## Modifiers that keep a wish to end -/

/-- The requests, and the wish to end as well if `quit` says so. -/
def Requests.orQuit (requests : Requests) (quit : Bool) : Requests :=
  { requests with quit := quit || requests.quit }

theorem Requests.none_orQuit {requests : Requests}
    (keep : requests.clear = false) :
    none.orQuit requests.quit = requests := by
  obtain ⟨quit, clear⟩ := requests
  cases keep
  exact congrArg (Requests.mk · false) (Bool.or_false quit)

/-- A modifier that **keeps a wish to end**: with one pending it does what it
does without, and leaves it pending. -/
def Modifier.KeepsQuit (m : Modifier) : Prop :=
  ∀ requests : Requests,
    m { requests with quit := true } = { m requests with quit := true }

theorem Modifier.KeepsQuit.orQuit {m : Modifier} (keeps : m.KeepsQuit)
    (requests : Requests) (quit : Bool) :
    m (requests.orQuit quit) = (m requests).orQuit quit := by
  cases quit with
  | false => rfl
  | true => exact keeps requests

/-- All registered modifiers keep a wish to end. -/
def Registry.KeepQuit (modifiers : Registry Modifier) : Prop :=
  ∀ name m, modifiers.get? name = some m → Modifier.KeepsQuit m

theorem Builtin.modifiers_keepQuit : Builtin.modifiers.KeepQuit := by
  intro name m found
  obtain ⟨before, behind, entries, -⟩ := List.lookup_eq_some_iff.mp found
  have entry : (name, m) ∈ modifiers.entries := by
    rw [entries]
    exact List.mem_append_right _ List.mem_cons_self
  simp only [modifiers, List.mem_cons, Prod.mk.injEq, List.not_mem_nil,
    or_false] at entry
  rcases entry with ⟨-, rfl⟩ | ⟨-, rfl⟩ | ⟨-, rfl⟩
  all_goals
    intro requests
    rfl

/-! ## A finish in the middle of a line -/

/-- The token that stands in the place of this one when another line
follows. -/
def Token.followed : Token → Token
  | finish => separator
  | token => token

/-- The tokens `s`, with `more` behind a separator in the place of what comes
from the first `finish` on. -/
def Cursor.splice (more : Cursor) : Cursor → Cursor
  | [] => .separator :: more
  | .finish :: _ => .separator :: more
  | token :: rest => token :: splice more rest

/-- The same outcome, but for an error that shows the end of the input: it
shows the end of a statement. -/
def Outcome.followed : Outcome → Outcome
  | failed (.evaluation (.unterminatedParenthesis found)) =>
    failed (.evaluation (.unterminatedParenthesis found.followed))
  | failed (.evaluation (.unexpectedToken found)) =>
    failed (.evaluation (.unexpectedToken found.followed))
  | outcome => outcome

namespace Cursor

theorem splice_cons {token : Token} (other : token ≠ .finish)
    (more rest : Cursor) :
    splice more (token :: rest) = token :: splice more rest := by
  rw [splice]
  exact other

theorem splice_concat_finish {xs : List Token} (no_finish : .finish ∉ xs)
    (more : Cursor) :
    splice more (xs ++ [.finish]) = xs ++ .separator :: more := by
  induction xs with
  | nil => rfl
  | cons token xs ih =>
      obtain ⟨here, later⟩ := not_or.mp (mt List.mem_cons.mpr no_finish)
      rw [List.cons_append, splice_cons (Ne.symm here), ih later]
      rfl

theorem current_splice (more s : Cursor) :
    (splice more s).current = s.current.followed := by
  cases s with
  | nil => rfl
  | cons token rest =>
      cases token with
      | finish => rfl
      | _ => rfl

end Cursor

namespace Transfer

/-- Further tokens in the place of a `finish`. -/
def joined (more : Cursor) : Transfer where
  requests := id
  cursor := Cursor.splice more
  token := Token.followed
  cons tail inside := by
    refine Cursor.splice_cons ?_ more tail
    rintro rfl
    cases inside
  current := Cursor.current_splice more
  endsStatement t := by
    cases t with
    | finish => rfl
    | _ => rfl

/-- A wish to end pending beforehand, if `quit` says so. -/
def pending (quit : Bool) : Transfer where
  requests := (·.orQuit quit)
  cursor := id
  token := id
  cons _ _ := rfl
  current _ := rfl
  endsStatement _ := rfl

theorem joined_unseen (more : Cursor) (env : Environment) :
    (joined more).Unseen env :=
  fun _ _ _ _ => rfl

theorem pending_unseen {env : Environment} (keep : env.modifiers.KeepQuit)
    (quit : Bool) : (pending quit).Unseen env := by
  intro name m bound requests
  have keeps := keep name m (Environment.modifiers_of_binding bound).2
  exact keeps.orQuit requests quit

/-! ## Statements and transfers -/

variable (T : Transfer)

def outcome : Outcome → Outcome
  | .failed (.evaluation error) => .failed (.evaluation (T.error error))
  | other => other

def session (session : Session) : Session :=
  { session with
    context := { session.context with
      requests := T.requests session.context.requests } }

theorem isFailed_outcome (outcome : Outcome) :
    (T.outcome outcome).isFailed = outcome.isFailed := by
  cases outcome with
  | failed error =>
      cases error with
      | lexical cause => rfl
      | evaluation error => rfl
  | _ => rfl

theorem outcome_joined (more : Cursor) (outcome : Outcome) :
    (joined more).outcome outcome = outcome.followed := by
  cases outcome with
  | failed error =>
      cases error with
      | lexical cause => rfl
      | evaluation error =>
          cases error with
          | _ => rfl
  | _ => rfl

theorem outcome_pending (quit : Bool) (outcome : Outcome) :
    (pending quit).outcome outcome = outcome := by
  cases outcome with
  | failed error =>
      cases error with
      | lexical cause => rfl
      | evaluation error =>
          cases error with
          | _ => rfl
  | _ => rfl

end Transfer

theorem Outcome.isFailed_followed (outcome : Outcome) :
    outcome.followed.isFailed = outcome.isFailed := by
  rw [← Transfer.outcome_joined [], Transfer.isFailed_outcome]

theorem Outcome.followed_of_not_isFailed {outcome : Outcome}
    (succeeded : outcome.isFailed = false) : outcome.followed = outcome := by
  cases outcome with
  | failed error => cases succeeded
  | _ => rfl

namespace Session

/-- A statement carries a transfer along. -/
theorem runStatement_transfer {T : Transfer} {session : Session}
    (unseen : T.Unseen session.context.toEnvironment) (s : Cursor) :
    (T.session session).runStatement (T.cursor s) =
      ⟨T.outcome (session.runStatement s).outcome,
        T.session (session.runStatement s).session,
        T.cursor (session.runStatement s).rest⟩ := by
  have replies : (T.session session).context.reply (T.cursor s) =
      T.reply (session.context.reply s) :=
    Environment.reply_transfer unseen (.level .sum) session.context.effects s
  rcases (session.context.reply s).value_or_failure with
    ⟨v, after, rest, came⟩ | ⟨error, after, rest, came⟩
  · rw [came, T.reply_value] at replies
    rw [runStatement_of_value came, runStatement_of_value replies,
      T.current, T.endsStatement]
    split
    · cases silent : after.silent with
      | true => simp only [silent, Transfer.effects]; rfl
      | false => simp only [silent, Transfer.effects]; rfl
    · rename_i goes_on
      rw [T.token_of_not_endsStatement (Bool.eq_false_iff.mpr goes_on)]
      rfl
  · rw [came, T.reply_failure] at replies
    rw [runStatement_of_failure came, runStatement_of_failure replies]
    rfl

/-! ## Lines and transfers -/

theorem runStatement_splice (session : Session) (more s : Cursor) :
    session.runStatement (Cursor.splice more s) =
      ⟨(session.runStatement s).outcome.followed,
        (session.runStatement s).session,
        Cursor.splice more (session.runStatement s).rest⟩ := by
  have ran := runStatement_transfer
    (Transfer.joined_unseen more session.context.toEnvironment) s
  rw [Transfer.outcome_joined] at ran
  exact ran

/-- Behind statements without a failure the further tokens are run; behind a
failure they are not. -/
theorem runStatements_splice (session : Session) (more s : Cursor) :
    session.runStatements (Cursor.splice more s) =
      let first := session.runStatements s
      if first.1.any Outcome.isFailed then
        (first.1.map Outcome.followed, first.2)
      else
        let second := first.2.runStatements more
        (first.1 ++ second.1, second.2) := by
  induction session, s using runStatements_induction with
  | nil session =>
      rw [runStatements_nil, Cursor.splice, runStatements_separator]
      rfl
  | finish session rest =>
      rw [Cursor.splice, runStatements_separator, runStatements_finish]
      rfl
  | separator session tail ih =>
      have kept : Cursor.splice more (.separator :: tail) =
          .separator :: Cursor.splice more tail := rfl
      rw [kept, runStatements_separator, runStatements_separator]
      exact ih
  | failed session token tail begins failed =>
      have ran := session.runStatement_splice more (token :: tail)
      rw [Cursor.splice_cons (Token.ne_of_begins begins).2] at ran ⊢
      have failed' : (session.runStatement
          (token :: Cursor.splice more tail)).outcome.isFailed = true := by
        rw [ran, Outcome.isFailed_followed]
        exact failed
      rw [runStatements_failed begins failed',
        runStatements_failed begins failed, ran]
      simp only [List.any_cons, failed, Bool.true_or, if_true, List.map_cons,
        List.map_nil]
  | succeeded session token tail begins succeeded ih =>
      have ran := session.runStatement_splice more (token :: tail)
      rw [Cursor.splice_cons (Token.ne_of_begins begins).2] at ran ⊢
      have succeeded' : (session.runStatement
          (token :: Cursor.splice more tail)).outcome.isFailed = false := by
        rw [ran, Outcome.isFailed_followed]
        exact succeeded
      rw [runStatements_succeeded begins succeeded',
        runStatements_succeeded begins succeeded, ran,
        Outcome.followed_of_not_isFailed succeeded]
      simp only [ih, List.any_cons, succeeded, Bool.false_or]
      split
      · rw [List.map_cons, Outcome.followed_of_not_isFailed succeeded]
      · rfl

theorem runStatement_pending {session : Session}
    (keep : session.context.modifiers.KeepQuit) (quit : Bool)
    (s : Cursor) :
    ((Transfer.pending quit).session session).runStatement s =
      ⟨(session.runStatement s).outcome,
        (Transfer.pending quit).session (session.runStatement s).session,
        (session.runStatement s).rest⟩ := by
  have ran := runStatement_transfer
    (Transfer.pending_unseen keep quit) s
  rw [Transfer.outcome_pending] at ran
  exact ran

/-- A wish to end that is pending before the statements is still pending
behind them, and makes no other difference. -/
theorem runStatements_pending {session : Session}
    (keep : session.context.modifiers.KeepQuit) (quit : Bool)
    (s : Cursor) :
    ((Transfer.pending quit).session session).runStatements s =
      ((session.runStatements s).1,
        (Transfer.pending quit).session (session.runStatements s).2) := by
  induction session, s using runStatements_induction with
  | nil session => rw [runStatements_nil, runStatements_nil]
  | finish session rest => rw [runStatements_finish, runStatements_finish]
  | separator session tail ih =>
      rw [runStatements_separator, runStatements_separator]
      exact ih keep
  | failed session token tail begins failed =>
      have ran := runStatement_pending keep quit (token :: tail)
      have failed' : (((Transfer.pending quit).session session).runStatement
          (token :: tail)).outcome.isFailed = true := by
        rw [ran]
        exact failed
      rw [runStatements_failed begins failed',
        runStatements_failed begins failed, ran]
      rfl
  | succeeded session token tail begins succeeded ih =>
      have ran := runStatement_pending keep quit (token :: tail)
      have succeeded' : (((Transfer.pending quit).session
          session).runStatement (token :: tail)).outcome.isFailed = false := by
        rw [ran]
        exact succeeded
      have kindred := session.runStatement_kindred (token :: tail)
      rw [runStatements_succeeded begins succeeded',
        runStatements_succeeded begins succeeded, ran]
      simp only
      rw [ih (kindred.modifiers ▸ keep)]

/-- Of requests without a clear, the session keeps the wish to end. -/
theorem applyRequests_of_no_clear {session : Session}
    (no_clear : session.context.requests.clear = false) :
    session.applyRequests =
      { session with
        context := { session.context with requests := .none }
        finished := session.finished || session.context.requests.quit } := by
  simp only [applyRequests, no_clear, Bool.false_eq_true, if_false]

/-- A wish to end can be acted on before the other requests. -/
theorem applyRequests_pending (session : Session) (quit : Bool) :
    ((Transfer.pending quit).session session).applyRequests =
      { session with finished := session.finished || quit }.applyRequests := by
  simp only [applyRequests, Transfer.session, Transfer.pending,
    Requests.orQuit, Bool.or_assoc]
  rfl

/-- Statements that begin with a wish to end pending come to what they come
to when it has been acted on before. -/
theorem runStatements_applyRequests {session : Session}
    (keep : session.context.modifiers.KeepQuit)
    (no_clear : session.context.requests.clear = false) (s : Cursor) :
    ((session.runStatements s).1,
        (session.runStatements s).2.applyRequests) =
      ((session.applyRequests.runStatements s).1,
        (session.applyRequests.runStatements s).2.applyRequests) := by
  -- between the two: no requests, and the wish to end not yet noted
  let idle : Session := { session with
    context := { session.context with requests := .none } }
  let quit := session.context.requests.quit
  have wished : (Transfer.pending quit).session idle = session := by
    simp only [Transfer.session, Transfer.pending, idle, quit,
      Requests.none_orQuit no_clear]
  have before := runStatements_pending
    (show idle.context.modifiers.KeepQuit from keep) quit s
  rw [wished] at before
  have after : session.applyRequests.runStatements s =
      ((idle.runStatements s).1,
        { (idle.runStatements s).2 with
          finished := (idle.runStatements s).2.finished || quit }) := by
    have context : session.applyRequests.context = idle.context := by
      rw [applyRequests_of_no_clear no_clear]
    rw [runStatements_of_context context]
    simp only [runStatements_settings, runStatements_finished,
      runStatements_failures, applyRequests_of_no_clear no_clear, idle, quit]
  rw [before, after, applyRequests_pending]

/-! ## Two lines in one -/

/-- **Joined lines.**  A line, a line break and a second line are run like the
one and then the other, if nothing in the first fails or asks for a clear and
the modifiers keep a wish to end.  If the first fails, the second is not run:
outcomes and session are those of the first alone, but for an error that shows
the end of the input, which then shows the end of a statement. -/
theorem runLine_joined (session : Session) {a b : String}
    {xs ys : List Token} (ha : tokenize a = .ok xs)
    (hb : tokenize b = .ok ys) :
    let first := session.runLine a
    let second := first.2.runLine b
    let joined := session.runLine (a ++ "\n" ++ b)
    (session.context.modifiers.KeepQuit →
      (∀ outcome ∈ first.1, outcome.isFailed = false) →
      (session.requested a).clear = false →
        joined = (first.1 ++ second.1, second.2)) ∧
    ∀ earlier error, first.1 = earlier ++ [.failed error] →
      joined = (earlier ++ [(Outcome.failed error).followed], first.2) := by
  intro first second joined
  obtain ⟨pieces, -, closed, no_finish⟩ := tokenize_eq_ok ha
  have spliced := Cursor.splice_concat_finish no_finish ys
  have both := tokenize_lines (closed ▸ ha) hb
  rw [← spliced, ← closed] at both
  have hfirst : first = _ := runLine_ok ha session
  have hjoined : joined = _ := runLine_ok both session
  rw [runStatements_splice] at hjoined
  constructor
  · intro keep succeeded no_clear
    have no_failure : (session.runStatements xs).1.any Outcome.isFailed =
        false := by
      rw [hfirst] at succeeded
      refine List.any_eq_false.mpr ?_
      intro outcome h
      exact Bool.eq_false_iff.mp (succeeded outcome h)
    have keep' : (session.runStatements xs).2.context.modifiers.KeepQuit :=
      (session.runStatements_kindred xs).modifiers ▸ keep
    rw [requested, ha] at no_clear
    have later := runStatements_applyRequests keep' no_clear ys
    have hsecond : second = _ := runLine_ok hb first.2
    simp only [no_failure, Bool.false_eq_true, if_false] at hjoined
    rw [hjoined, hsecond, hfirst]
    exact congrArg (fun ran : List Outcome × Session =>
      ((session.runStatements xs).1 ++ ran.1, ran.2)) later
  · intro earlier error outcomes
    rw [hfirst] at outcomes
    have failure : (session.runStatements xs).1.any Outcome.isFailed =
        true := by
      rw [outcomes, List.any_append]
      exact Bool.or_true _
    have unchanged : earlier.map Outcome.followed = earlier := by
      have others := session.runStatements_dropLast xs
      rw [outcomes, List.dropLast_concat] at others
      refine (List.map_congr_left ?_).trans earlier.map_id
      intro outcome h
      exact Outcome.followed_of_not_isFailed (others outcome h)
    simp only [failure, if_true] at hjoined
    rw [hjoined, hfirst, outcomes, List.map_append, unchanged]
    rfl

/-- A new session in which one more modifier is registered. -/
def withModifier (name : String) (m : Modifier) : Session :=
  let fresh := ofSettings {}
  { fresh with
    context := { fresh.context with
      modifiers := fresh.context.modifiers.register name m } }

/-- Both conditions are needed.  A modifier that takes the wish to end back
tells the two apart: line by line the session has ended before it is called,
on one line it has not.  So does a clear, whatever its name: line by line the
variable is gone, on one line it is still there. -/
theorem runLine_joined_retracted :
    (let session := withModifier "unquit" fun requests =>
        { requests with quit := false }
      let first := session.runLine "quit"
      let second := first.2.runLine "unquit"
      let joined := session.runLine ("quit" ++ "\n" ++ "unquit")
      session.context.requests = .none ∧
        tokenize "quit" = .ok [.name "quit", .finish] ∧
        tokenize "unquit" = .ok [.name "unquit", .finish] ∧
        first.1 = [.silent] ∧ (session.requested "quit").clear = false ∧
        joined.1 = first.1 ++ second.1 ∧
        second.2.finished = true ∧ joined.2.finished = false) ∧
      let session := withModifier "wipe" Builtin.clear
      let first := session.runLine "x = 5; wipe"
      let second := first.2.runLine "x"
      let joined := session.runLine ("x = 5; wipe" ++ "\n" ++ "x")
      session.context.requests = .none ∧
        tokenize "x = 5; wipe" = .ok [.name "x", .assign, .number 5,
          .separator, .name "wipe", .finish] ∧
        tokenize "x" = .ok [.name "x", .finish] ∧
        first.1 = [.value 5, .silent] ∧
        second.1 = [.failed (.evaluation (.undefinedName "x"))] ∧
        joined.1 = [.value 5, .silent, .value 5] := by
  decide +kernel

theorem runLine_joined_quit :
    let session := Session.ofSettings {}
    let first := session.runLine "x = pi; quit"
    let second := first.2.runLine "x; clear"
    session.runLine ("x = pi; quit" ++ "\n" ++ "x; clear") =
        (first.1 ++ second.1, second.2) ∧
      session.runLine ("(" ++ "\n" ++ "quit") =
        ([.failed (.evaluation (.unexpectedToken .separator))],
          (session.runLine "(").2) := by
  have ha : tokenize "x = pi; quit" = .ok [.name "x", .assign, .name "pi",
      .separator, .name "quit", .finish] := by cbv
  have hb : tokenize "x; clear" = .ok [.name "x", .separator, .name "clear",
      .finish] := by cbv
  have hopen : tokenize "(" = .ok [.opening, .finish] := by cbv
  have hquit : tokenize "quit" = .ok [.name "quit", .finish] := by cbv
  constructor
  · exact (runLine_joined _ ha hb).1 Builtin.modifiers_keepQuit
      (by decide +kernel) (by decide +kernel)
  · exact (runLine_joined _ hopen hquit).2 []
      (.evaluation (.unexpectedToken .finish)) (by decide +kernel)

end Session

end Reckoner
