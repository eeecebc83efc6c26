/-!
# Verdicts

A check passes, fails, or is blocked by a fault that kept it from being carried out. Verdicts are
ordered by severity, and several of them are summed up by the most severe one: any failure wins,
then any block, and nothing at all passes.
-/

namespace FeedAudit

/-- The outcome of a check. -/
inductive Verdict where
  /-- The expectation is satisfied. -/
  | pass
  /-- The check could not be carried out. -/
  | block
  /-- The document differs from the expectation. -/
  | fail
  deriving DecidableEq, Repr, Inhabited

namespace Verdict

/-- Severity, growing from passing over blocked to failing. -/
def severity : Verdict → Nat
  | pass => 0
  | block => 1
  | fail => 2

/-- The more severe of two verdicts. -/
def worse (a b : Verdict) : Verdict := if a.severity ≤ b.severity then b else a

/-- The most severe verdict of a list, `pass` when the list is empty. -/
def worst : List Verdict → Verdict
  | [] => pass
  | v :: rest => worse v (worst rest)

/-- The word by which logs and reports name a verdict. -/
def word : Verdict → String
  | pass => "PASS"
  | block => "BLOCK"
  | fail => "FAIL"

def isPass : Verdict → Bool
  | pass => true
  | _ => false

@[simp] theorem worst_nil : worst [] = pass := rfl

@[simp] theorem worst_cons (v : Verdict) (rest : List Verdict) :
    worst (v :: rest) = worse v (worst rest) := rfl

@[simp] theorem worse_pass (v : Verdict) : worse v pass = v := by cases v <;> rfl

@[simp] theorem pass_worse (v : Verdict) : worse pass v = v := by cases v <;> rfl

/-- Verdicts are told apart by their words. -/
@[simp] theorem word_inj {v w : Verdict} : v.word = w.word ↔ v = w := by
  cases v <;> cases w <;> decide

/-- The worse of two verdicts is as severe as the more severe one. -/
theorem severity_worse (v w : Verdict) : (worse v w).severity = max v.severity w.severity := by
  cases v <;> cases w <;> rfl

/-- Nothing in a list is more severe than what it is summed up by. -/
theorem severity_le_worst {v : Verdict} {vs : List Verdict} (h : v ∈ vs) :
    v.severity ≤ (worst vs).severity := by
  induction vs with
  | nil => cases h
  | cons w rest ih =>
    rw [worst_cons, severity_worse]
    rcases List.mem_cons.mp h with rfl | hrest
    · exact Nat.le_max_left _ _
    · exact Nat.le_trans (ih hrest) (Nat.le_max_right _ _)

/-- What sums up a list that is not empty is in it. -/
theorem worst_mem {vs : List Verdict} (h : vs ≠ []) : worst vs ∈ vs := by
  induction vs with
  | nil => exact absurd rfl h
  | cons v rest ih =>
    cases rest with
    | nil => simp
    | cons w others =>
      have hrest := ih (List.cons_ne_nil w others)
      rw [worst_cons]
      unfold worse
      split
      · exact List.mem_cons_of_mem v hrest
      · exact List.mem_cons_self

/-- A list is summed up by `pass` exactly when everything in it passes. -/
theorem worst_eq_pass_iff (vs : List Verdict) : worst vs = pass ↔ ∀ v ∈ vs, v = pass := by
  induction vs with
  | nil => simp
  | cons v rest ih =>
    cases v with
    | pass => simp [ih]
    | block => cases h : worst rest <;> simp [h, worse, severity]
    | fail => cases h : worst rest <;> simp [h, worse, severity]

end Verdict

end FeedAudit
