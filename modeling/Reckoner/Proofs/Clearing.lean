/-
# A clear forgets everything

A clear takes effect at the end of its line, failed or not.  Afterwards the
session has the context of a fresh one: variables and history begin again,
what else a context holds no line can change, and no request outlives its
line.  Lines read nothing but the context.  So from there on the session
cannot be told from a fresh one by what its lines come to, whatever was run
before the clear or behind it on the same line.
-/
import Reckoner.Proofs.Statements

namespace Reckoner

namespace Context

/-- Clearing leads back to the beginning. -/
theorem reset_eq_ofSettings {settings : Settings} {context : Context}
    (kindred : Kindred (Session.ofSettings settings).context context)
    (idle : context.requests = .none) :
    context.reset = (Session.ofSettings settings).context := by
  obtain ⟨⟨functions, modifiers, ⟨capacity, entries⟩, policy⟩, vars,
    requests⟩ := context
  obtain ⟨rfl, rfl, rfl, rfl⟩ := kindred
  obtain rfl : requests = .none := idle
  rfl

end Context

namespace Session

theorem applyRequests_of_clear {session : Session}
    (clear : session.context.requests.clear = true) :
    session.applyRequests.context =
      { session.context with requests := .none }.reset := by
  simp only [applyRequests, clear, if_true]

theorem runLine_of_clear {settings : Settings} {session : Session}
    (kindred : Context.Kindred (ofSettings settings).context session.context)
    {line : String} {tokens : List Token}
    (readable : tokenize line = .ok tokens)
    (clears : (session.requested line).clear = true) :
    (session.runLine line).2.context = (ofSettings settings).context := by
  rw [requested, readable] at clears
  rw [runLine_ok readable]
  simp only
  rw [applyRequests_of_clear clears]
  refine Context.reset_eq_ofSettings ?_ rfl
  have others := kindred.trans (session.runStatements_kindred tokens)
  exact ⟨others.functions, others.modifiers, others.policy, others.capacity⟩

/-- **A clear forgets everything.**  Behind a line that asks for a clear,
further lines have the outcomes that they have in a fresh session, and they
come to the same variables, history and requests. -/
theorem runLines_of_clear (settings : Settings) (lines : List String)
    {last : String}
    (clears : (((ofSettings settings).runLines lines).2.requested last).clear =
      true) (more : List String) :
    let fresh := ofSettings settings
    let cleared := (fresh.runLines (lines ++ [last])).2
    (cleared.runLines more).1 = (fresh.runLines more).1 ∧
      (cleared.runLines more).2.context = (fresh.runLines more).2.context := by
  intro fresh cleared
  refine runLines_of_context ?_ more
  show (fresh.runLines (lines ++ [last])).2.context = _
  rw [runLines_concat]
  cases cut : tokenize last with
  | ok tokens =>
      exact runLine_of_clear (fresh.runLines_kindred lines) cut clears
  | error cause =>
      -- no request outlives a line, so this one would have had to ask
      have idle := runLines_requests (Eq.refl fresh.context.requests) lines
      simp only [requested, cut] at clears
      rw [show (fresh.runLines lines).2.context.requests = .none from idle]
        at clears
      cases clears

theorem runLines_of_clear_failing :
    let fresh := ofSettings {}
    let cleared := (fresh.runLines (["pi = e"] ++ ["x = $; clear; ("])).2
    (cleared.runLines ["x", "pi", "$"]).1 =
        (fresh.runLines ["x", "pi", "$"]).1 ∧
      (cleared.runLines ["x", "pi", "$"]).2.context =
        (fresh.runLines ["x", "pi", "$"]).2.context :=
  runLines_of_clear {} ["pi = e"] (by decide +kernel) ["x", "pi", "$"]

end Session

end Reckoner
