import FeedAudit.Proofs.Narration

/-!
# Checks that do not touch each other

All checks of a run write to one log, and those of a list are made one after the other whatever
comes of each. `Narrated.OneByOne` says that nothing passes between them: every check returns what
it returns alone, and adds to the log what it tells alone.

Main statement: `checkElements_oneByOne`. Elements below a context are checked one by one, and so
are the attributes of an element; hence another expectation in the place of one of them leaves the
results and the lines of all others as they are.
-/

namespace FeedAudit

namespace Narrated

variable {σ α β : Type}

/-- `OneByOne each all parts` says that `all` makes the checks of a list as `each` makes them alone.
The results of the single checks are the `parts` of what it returns. -/
structure OneByOne (each : σ → Narrated α) (all : List σ → Narrated β) (parts : β → List α) :
    Prop where
  /-- At every position is the result of the check alone. -/
  result_at (specs : List σ) (log : RunLog) (i : Nat) :
    (parts ((all specs).run log).1)[i]? = specs[i]?.map fun spec => ((each spec).run .empty).1
  /-- Behind the log so far are the lines of the checks alone, in order. -/
  lines_eq (specs : List σ) (log : RunLog) :
    ((all specs).run log).2.toList =
      log.toList ++ specs.flatMap fun spec => ((each spec).run .empty).2.toList

/-- `KeepsOthers each all parts` says that a check made by `all` can be any at all without touching
the others: around it stand the same results and the same lines, one piece of the log for each. -/
def KeepsOthers (each : σ → Narrated α) (all : List σ → Narrated β) (parts : β → List α) : Prop :=
  ∀ (before after : List σ) (log : RunLog),
    ∃ (results others : List α) (lines otherLines : List (List String)),
      results.length = before.length ∧ others.length = after.length ∧
      lines.length = before.length ∧ otherLines.length = after.length ∧
      ∀ spec, let run := (all (before ++ spec :: after)).run log
        parts run.1 = results ++ ((each spec).run .empty).1 :: others ∧
          run.2.toList = log.toList ++
            (lines ++ ((each spec).run .empty).2.toList :: otherLines).flatten

variable {each : σ → Narrated α} {all : List σ → Narrated β} {parts : β → List α}

/-- Checks that are steady are made one by one if this is so for what is returned and told when
nothing was told before. -/
theorem OneByOne.of_steady (hsteady : ∀ specs, Steady (all specs))
    (hresult : ∀ specs, parts (all specs).result = specs.map fun spec => (each spec).result)
    (htold : ∀ specs, (all specs).told = specs.flatMap fun spec => (each spec).told) :
    OneByOne each all parts where
  result_at specs log i := by
    rw [(hsteady specs).fst_run, hresult, List.getElem?_map]
    rfl
  lines_eq specs log := by
    rw [hsteady specs log, RunLog.toList_extend, htold]
    rfl

/-- Where all is checked one by one, a change of one expectation keeps what comes of the others. -/
theorem OneByOne.keepsOthers (h : OneByOne each all parts) : KeepsOthers each all parts := by
  intro before after log
  let result (spec : σ) : α := ((each spec).run .empty).1
  let told (spec : σ) : List String := ((each spec).run .empty).2.toList
  refine ⟨before.map result, after.map result, before.map told, after.map told,
    List.length_map result, List.length_map result, List.length_map told, List.length_map told,
    fun spec => ⟨?_, ?_⟩⟩
  · apply List.ext_getElem?
    intro i
    have hmap : before.map result ++ result spec :: after.map result =
        (before ++ spec :: after).map result := by
      rw [List.map_append, List.map_cons]
    rw [hmap, List.getElem?_map]
    exact h.result_at _ log i
  · have hmap : before.map told ++ told spec :: after.map told =
        (before ++ spec :: after).map told := by
      rw [List.map_append, List.map_cons]
    rw [hmap, h.lines_eq, List.flatMap_def]

end Narrated

open Narrated

/-! ## What lists of checks tell -/

/-- What is told by a check with others behind it. -/
theorem told_first_others {α : Type} {first : Narrated α} {rest : Narrated (List α)}
    (hfirst : Steady first) (hrest : Steady rest) :
    (do let result ← first; let others ← rest; return result :: others : Narrated (List α)).told =
      first.told ++ rest.told := by
  have hend (result : α) : Steady (rest >>= fun others => pure (result :: others)) :=
    hrest.bind fun _ => steady_pure _
  rw [hfirst.told_bind hend, hrest.told_bind fun _ => steady_pure _, (tells_pure _).told_eq,
    List.append_nil]

/-- What is told of elements is what is told of each, one after the other. -/
theorem told_checkElements (context : Selection) (specs : List ElementSpec) :
    (checkElements context specs).told =
      specs.flatMap fun spec => (checkElement context spec).told := by
  induction specs with
  | nil =>
    rw [checkElements]
    exact (tells_pure _).told_eq
  | cons spec rest ih =>
    have hrest := steady_checkElements fun s (_ : s ∈ rest) => steady_checkElement context s
    rw [checkElements, told_first_others (steady_checkElement context spec) hrest, ih,
      List.flatMap_cons]

/-- What is told of listed attributes is what is told of each, one after the other. -/
theorem told_checkAttributeList (found : Selection) (specs : List AttributeSpec) :
    (checkAttributeList found specs).told =
      specs.flatMap fun spec => (checkAttribute found spec).told := by
  induction specs with
  | nil => exact (tells_pure _).told_eq
  | cons spec rest ih =>
    rw [checkAttributeList, told_first_others (steady_checkAttribute found spec)
      (steady_checkAttributeList found rest), ih, List.flatMap_cons]

/-- What is told of attributes is what is told of each, one after the other. -/
theorem told_checkAttributes (found : Selection) (specs : List AttributeSpec) :
    (checkAttributes found specs).told =
      specs.flatMap fun spec => (checkAttribute found spec).told := by
  rw [checkAttributes, (steady_checkAttributeList found specs).told_bind fun _ => steady_pure _,
    told_checkAttributeList, (tells_pure _).told_eq, List.append_nil]

/-! ## Elements and attributes -/

/-- Elements are checked one by one. -/
theorem oneByOne_elements (context : Selection) :
    OneByOne (checkElement context) (checkElements context) id :=
  .of_steady (fun _ => steady_checkElements fun spec _ => steady_checkElement context spec)
    (result_checkElements context) (told_checkElements context)

/-- Attributes are checked one by one. -/
theorem oneByOne_attributes (found : Selection) :
    OneByOne (checkAttribute found) (checkAttributes found) (·.each) :=
  .of_steady (steady_checkAttributes found)
    (fun specs => by rw [result_checkAttributes]) (told_checkAttributes found)

/-- Elements that are checked below a context leave, whatever stands in the log already, the results
that each of them leaves alone, and behind the log the lines that each of them tells alone, in
order; so do the attributes of an element. Another expectation in the place of one of them, and be
it malformed, changes neither the results of the others nor their lines. -/
theorem checkElements_oneByOne :
    (∀ context, OneByOne (checkElement context) (checkElements context) id ∧
      KeepsOthers (checkElement context) (checkElements context) id) ∧
    ∀ found, OneByOne (checkAttribute found) (checkAttributes found) (·.each) ∧
      KeepsOthers (checkAttribute found) (checkAttributes found) (·.each) :=
  ⟨fun context => ⟨oneByOne_elements context, (oneByOne_elements context).keepsOthers⟩,
    fun found => ⟨oneByOne_attributes found, (oneByOne_attributes found).keepsOthers⟩⟩

end FeedAudit
