import ServiceGen.Schema.Check

/-!
When a collection of problems is empty.  Attaching, adding and reporting never lose a problem, so
a collection that is still empty after a check was empty before it, and the check found nothing.
-/

namespace ServiceGen.Problems

@[simp] theorem isEmpty_empty : empty.isEmpty = true := rfl

/-- An added message is not lost. -/
@[simp] theorem isEmpty_add (p : Problems) (message : String) :
    (p.add message).isEmpty = false := by
  obtain ⟨messages, ⟨children⟩⟩ := p
  simp [add, isEmpty]

theorem isEmpty_addAll (p : Problems) (messages : List String) :
    (p.addAll messages).isEmpty = (p.isEmpty && messages.isEmpty) := by
  obtain ⟨own, ⟨children⟩⟩ := p
  cases own <;> cases messages <;> simp [addAll, isEmpty]

/-- A problem written under a route stays, whatever else the routes hold. -/
theorem allEmpty_alterEntry (route : String) (f : Option Problems → Problems)
    (hf : ∀ below, (f below).isEmpty = false) (entries : List (String × Problems)) :
    allEmpty (SortedMap.alterEntry route f entries) = false := by
  induction entries with
  | nil => simp [SortedMap.alterEntry, allEmpty, hf]
  | cons entry rest ih =>
      obtain ⟨part, p⟩ := entry
      cases hcompare : compare route part <;>
        simp [SortedMap.alterEntry, hcompare, allEmpty, hf, ih]

mutual

/-- Attaching loses no problem, neither of the collection nor of what is attached. -/
theorem isEmpty_attach (p : Problems) (route : String) :
    ∀ q : Problems, (p.attach route q).isEmpty = (p.isEmpty && q.isEmpty)
  | ⟨messages, ⟨children⟩⟩ => by
      by_cases hnone : (messages.isEmpty && allEmpty children) = true
      · simp [attach, isEmpty, hnone]
      · -- whatever stands under the route already, there is a problem under it afterwards
        have hbelow : ∀ below : Option Problems,
            (attachAll ((below.getD empty).addAll messages) children).isEmpty = false := by
          intro below
          rw [isEmpty_attachAll, isEmpty_addAll, Bool.and_assoc]
          simp [hnone]
        have hchildren := allEmpty_alterEntry route _ hbelow p.children.entries
        simp only [attach, hnone, Bool.false_eq_true, ↓reduceIte, isEmpty, SortedMap.alter,
          hchildren, Bool.and_false]

theorem isEmpty_attachAll (p : Problems) :
    ∀ children : List (String × Problems),
      (p.attachAll children).isEmpty = (p.isEmpty && allEmpty children)
  | [] => by simp [attachAll, allEmpty]
  | (route, q) :: rest => by
      rw [attachAll, isEmpty_attachAll, isEmpty_attach, allEmpty, Bool.and_assoc]

end

/-- A reported problem is not lost. -/
@[simp] theorem isEmpty_report (p : Problems) (route : List String) (message : String) :
    (p.report route message).isEmpty = false := by
  cases route with
  | nil => simp [report, isEmpty_attach]
  | cons first rest =>
      have hbelow : (rest.foldr (fun part below => empty.attach part below)
          (empty.add message)).isEmpty = false := by
        induction rest with
        | nil => simp
        | cons part rest ih => simp [isEmpty_attach, ih]
      simp [report, isEmpty_attach, hbelow]

/-- A collection that grows when something is wrong is empty exactly when it was empty and nothing
is wrong. -/
theorem isEmpty_report_if (p : Problems) (wrong : Bool) (route : List String) (message : String) :
    (if wrong then p.report route message else p).isEmpty = (p.isEmpty && !wrong) := by
  cases wrong <;> simp

theorem isEmpty_report_unless (p : Problems) (right : Bool) (route : List String)
    (message : String) :
    (if right then p else p.report route message).isEmpty = (p.isEmpty && right) := by
  cases right <;> simp

end ServiceGen.Problems
