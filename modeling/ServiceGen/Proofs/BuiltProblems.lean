import ServiceGen.Proofs.LocatedProblems
import ServiceGen.Proofs.SortedMap

/-!
Collections of problems that are built by adding messages and attaching collections.  In such a
collection every part leads to a problem, and no part comes twice, so the messages under one route
stand in one place and keep their order.  The main statement is
`attached_problems_join_in_order`.
-/

namespace ServiceGen.Problems

/-- What adding messages and attaching collections leads to. -/
inductive Built : Problems → Prop where
  | empty : Built .empty
  | add {p : Problems} (hp : Built p) (message : String) : Built (p.add message)
  | attach {p q : Problems} (hp : Built p) (part : String) (hq : Built q) :
      Built (p.attach part q)

/-- At every depth the parts ascend, and there is a problem below each of them. -/
inductive WellFormed : Problems → Prop where
  | mk {p : Problems} (ascending : SortedMap.Ascending p.children.entries)
      (filled : ∀ child ∈ p.children.entries, child.2.isEmpty = false)
      (children : ∀ child ∈ p.children.entries, WellFormed child.2) : WellFormed p

/-- The problems below one part. -/
def child (p : Problems) (part : String) : Problems :=
  (p.children.get? part).getD empty

/-- The messages at the end of a route, in the order in which they are listed. -/
def messagesAt (route : List String) (listed : List (List String × String)) : List String :=
  (listed.filter (·.1 = route)).map (·.2)

section WellFormed

variable {p : Problems}

theorem wellFormed_empty : empty.WellFormed :=
  ⟨.nil, List.forall_mem_nil _, List.forall_mem_nil _⟩

theorem WellFormed.addAll (hp : p.WellFormed) (messages : List String) :
    (p.addAll messages).WellFormed := by
  obtain ⟨ascending, filled, children⟩ := hp
  exact ⟨ascending, filled, children⟩

theorem WellFormed.child (hp : p.WellFormed) (part : String) : (p.child part).WellFormed := by
  obtain ⟨-, -, children⟩ := hp
  rw [Problems.child]
  cases hget : p.children.get? part with
  | none => exact wellFormed_empty
  | some q =>
      obtain ⟨entry, hentry, rfl⟩ := SortedMap.exists_mem_of_get? hget
      exact children entry hentry

theorem isEmpty_attachAll_addAll (p : Problems) {messages : List String}
    {children : List (String × Problems)}
    (hsome : (messages.isEmpty && allEmpty children) = false) :
    ((p.addAll messages).attachAll children).isEmpty = false := by
  rw [isEmpty_attachAll, isEmpty_addAll, Bool.and_assoc, hsome, Bool.and_false]

mutual

/-- Attaching brings in no part without a problem below it. -/
theorem WellFormed.attach {p : Problems} (hp : p.WellFormed) (part : String) :
    ∀ {q : Problems}, q.WellFormed → (p.attach part q).WellFormed
  | ⟨messages, ⟨children⟩⟩, ⟨_, _, hchildren⟩ => by
      obtain ⟨ascending, filled, below⟩ := hp
      rw [Problems.attach]
      split
      · exact ⟨ascending, filled, below⟩
      · rename_i hsome
        have hfilled : ∀ old : Option Problems,
            (((old.getD empty).addAll messages).attachAll children).isEmpty = false :=
          fun old => isEmpty_attachAll_addAll (old.getD empty) (Bool.not_eq_true _ ▸ hsome)
        refine ⟨ascending.alter part _, ?_, ?_⟩
        · refine SortedMap.forall_mem_alterEntry (fun q : Problems => q.isEmpty = false)
            ?_ ?_ filled
          · exact hfilled none
          · exact fun old _ => hfilled (some old)
        · refine SortedMap.forall_mem_alterEntry WellFormed ?_ ?_ below
          · exact WellFormed.attachAll (wellFormed_empty.addAll messages) hchildren
          · exact fun old hold => WellFormed.attachAll (hold.addAll messages) hchildren

theorem WellFormed.attachAll {p : Problems} (hp : p.WellFormed) :
    ∀ {children : List (String × Problems)}, (∀ child ∈ children, child.2.WellFormed) →
      (p.attachAll children).WellFormed
  | [], _ => hp
  | (part, q) :: rest, hchildren => by
      obtain ⟨hq, hrest⟩ := List.forall_mem_cons.mp hchildren
      exact WellFormed.attachAll (WellFormed.attach hp part hq) hrest

end

theorem Built.wellFormed (hp : p.Built) : p.WellFormed := by
  induction hp with
  | empty => exact wellFormed_empty
  | add _ message ih => exact ih.addAll [message]
  | attach _ part _ ihp ihq => exact ihp.attach part ihq

end WellFormed

section MessagesAt

variable {listed : List (List String × String)} {part first : String} {rest route : List String}

@[simp] theorem messagesAt_nil : messagesAt route [] = [] := rfl

@[simp] theorem messagesAt_append (more : List (List String × String)) :
    messagesAt route (listed ++ more) = messagesAt route listed ++ messagesAt route more := by
  simp [messagesAt]

@[simp] theorem messagesAt_nil_own (messages : List String) :
    messagesAt [] (messages.map ([], ·)) = messages := by
  simp [messagesAt, List.filter_map, Function.comp_def]

@[simp] theorem messagesAt_cons_own (messages : List String) :
    messagesAt (first :: rest) (messages.map ([], ·)) = [] := by
  simp [messagesAt, List.filter_map, Function.comp_def]

@[simp] theorem messagesAt_nil_under : messagesAt [] (listed.map (under part)) = [] := by
  simp [messagesAt, List.filter_map, Function.comp_def, under]

@[simp] theorem messagesAt_cons_under :
    messagesAt (first :: rest) (listed.map (under part)) =
      if first = part then messagesAt rest listed else [] := by
  by_cases hfirst : first = part
  · simp [messagesAt, List.filter_map, Function.comp_def, under, hfirst]
  · simp [messagesAt, List.filter_map, Function.comp_def, under, hfirst, Ne.symm hfirst]

theorem messagesAt_nil_locatedBelow (children : List (String × Problems)) :
    messagesAt [] (locatedBelow children) = [] := by
  induction children with
  | nil => rw [locatedBelow, messagesAt_nil]
  | cons child rest ih =>
      rw [locatedBelow, messagesAt_append, messagesAt_nil_under, ih, List.append_nil]

theorem messagesAt_cons_locatedBelow {children : SortedMap String Problems}
    (hchildren : SortedMap.Ascending children.entries) :
    messagesAt (first :: rest) (locatedBelow children.entries) =
      messagesAt rest ((children.get? first).getD empty).located := by
  obtain ⟨entries⟩ := children
  induction entries with
  | nil => simp [locatedBelow, SortedMap.get?]
  | cons entry others ih =>
      obtain ⟨part, p⟩ := entry
      obtain ⟨hlater, hothers⟩ := List.pairwise_cons.mp hchildren
      rw [locatedBelow, messagesAt_append, messagesAt_cons_under, ih hothers, SortedMap.get?,
        SortedMap.get?, List.find?_cons]
      by_cases hfirst : first = part
      · subst hfirst
        -- the part comes before all others, so nothing more is found under it
        have hnone : others.find? (fun entry => compare first entry.1 == .eq) = none :=
          List.find?_eq_none.mpr fun entry hentry => by simp [hlater entry hentry]
        simp [hnone]
      · have hne : (compare first part == .eq) = false := by simpa using hfirst
        simp [hfirst, hne]

theorem messagesAt_nil_located (p : Problems) : messagesAt [] p.located = p.messages := by
  obtain ⟨messages, children⟩ := p
  rw [located_mk, messagesAt_append, messagesAt_nil_own, messagesAt_nil_locatedBelow,
    List.append_nil]

theorem messagesAt_cons_located {p : Problems} (hp : p.WellFormed) :
    messagesAt (first :: rest) p.located = messagesAt rest (p.child first).located := by
  obtain ⟨ascending, -, -⟩ := hp
  obtain ⟨messages, children⟩ := p
  rw [located_mk, messagesAt_append, messagesAt_cons_own, messagesAt_cons_locatedBelow ascending]
  rfl

theorem messagesAt_addAll (p : Problems) (messages : List String) :
    messagesAt route (p.addAll messages).located =
      messagesAt route p.located ++ messagesAt route (messages.map ([], ·)) := by
  obtain ⟨own, children⟩ := p
  rw [addAll, located_mk, located_mk]
  cases route with
  | nil => simp [messagesAt_nil_locatedBelow]
  | cons first rest => simp

theorem messages_attach (p : Problems) (part : String) (q : Problems) :
    (p.attach part q).messages = p.messages := by
  obtain ⟨messages, ⟨children⟩⟩ := q
  rw [attach]
  split <;> rfl

/-- Attaching merges below its own part only. -/
theorem child_attach {p : Problems} (hp : p.WellFormed) {messages : List String}
    {children : List (String × Problems)}
    (hsome : (messages.isEmpty && allEmpty children) = false) :
    (p.attach part ⟨messages, ⟨children⟩⟩).child first =
      if first = part then attachAll ((p.child part).addAll messages) children
      else p.child first := by
  obtain ⟨ascending, -, -⟩ := hp
  rw [attach, hsome, if_neg Bool.false_ne_true, child, SortedMap.get?_alter ascending]
  split <;> rfl

mutual

/-- What is attached stands behind what was there. -/
theorem messagesAt_attach {p : Problems} (hp : p.WellFormed) (part : String) :
    ∀ {q : Problems}, q.WellFormed → ∀ route,
      messagesAt route (p.attach part q).located =
        messagesAt route p.located ++ messagesAt route (q.located.map (under part))
  | q, _, [] => by
      rw [messagesAt_nil_located, messagesAt_nil_located, messages_attach, messagesAt_nil_under,
        List.append_nil]
  | ⟨messages, ⟨children⟩⟩, hq, first :: rest => by
      cases hsome : messages.isEmpty && allEmpty children with
      | true =>
          have hlocated : (mk messages ⟨children⟩).located = [] :=
            (located_eq_nil_iff _).mpr (by rw [isEmpty, hsome])
          rw [attach, hsome, if_pos rfl, hlocated, List.map_nil, messagesAt_nil, List.append_nil]
      | false =>
          rw [messagesAt_cons_located (hp.attach part hq), messagesAt_cons_located hp,
            child_attach hp hsome, messagesAt_cons_under]
          obtain ⟨-, -, hchildren⟩ := hq
          split
          · rename_i hfirst
            rw [messagesAt_attachAll ((hp.child part).addAll messages) hchildren, located_mk,
              messagesAt_append, messagesAt_addAll, hfirst, List.append_assoc]
          · rw [List.append_nil]

theorem messagesAt_attachAll {p : Problems} (hp : p.WellFormed) :
    ∀ {children : List (String × Problems)}, (∀ child ∈ children, child.2.WellFormed) →
      ∀ route, messagesAt route (p.attachAll children).located =
        messagesAt route p.located ++ messagesAt route (locatedBelow children)
  | [], _, route => by rw [attachAll, locatedBelow, messagesAt_nil, List.append_nil]
  | (part, q) :: rest, hchildren, route => by
      obtain ⟨hq, hrest⟩ := List.forall_mem_cons.mp hchildren
      rw [attachAll, locatedBelow, messagesAt_attachAll (hp.attach part hq) hrest,
        messagesAt_attach hp part hq, messagesAt_append, List.append_assoc]

end

end MessagesAt

/-- The numbers and texts that are made of a collection agree with its list of messages, and the
collection keeps nothing else. -/
structure Accounted (p : Problems) : Prop where
  count : p.count = p.located.length
  isEmpty : p.isEmpty = true ↔ p.located = []
  wellFormed : p.WellFormed
  flatten : p.flatten =
    p.located.map fun x => (".".intercalate (x.1.dropWhile (· = "")), x.2)

theorem Built.accounted {p : Problems} (hp : p.Built) : p.Accounted where
  count := count_eq p
  isEmpty := (located_eq_nil_iff p).symm
  wellFormed := hp.wellFormed
  flatten := by simp only [flatten_eq, foldl_joinRoute_empty]

/-- Attaching joins the messages of both collections, those of the attached one with the part in
front of their routes.  Under each route the messages keep their order, those that were there
first. -/
theorem attached_problems_join_in_order {p q : Problems} (hp : p.Built) (hq : q.Built)
    (part : String) :
    (p.attach part q).located.Perm (p.located ++ q.located.map (under part)) ∧
      (∀ route, messagesAt route (p.attach part q).located =
        messagesAt route p.located ++ messagesAt route (q.located.map (under part))) ∧
      p.Accounted :=
  ⟨located_attach_perm p part q, messagesAt_attach hp.wellFormed part hq.wellFormed,
    hp.accounted⟩

namespace BuiltProblemsWitness

/-- Problems of a service and of one of its operations. -/
def earlier : Problems :=
  (empty.add "renamed").attach "Orders" ((empty.add "old").attach "place" (empty.add "no result"))

/-- More problems of the service, one of them without a name on its route. -/
def later : Problems :=
  ((empty.add "retired").attach "place" (empty.add "no argument")).attach ""
    (empty.add "no name")

theorem earlier_joins_later :
    earlier.Built ∧ later.Built ∧
      (earlier.attach "Orders" later).located.Perm
        (earlier.located ++ later.located.map (under "Orders")) ∧
      (∀ route, messagesAt route (earlier.attach "Orders" later).located =
        messagesAt route earlier.located ++
          messagesAt route (later.located.map (under "Orders"))) ∧
      earlier.Accounted := by
  have hearlier : earlier.Built :=
    (Built.empty.add "renamed").attach "Orders"
      ((Built.empty.add "old").attach "place" (Built.empty.add "no result"))
  have hlater : later.Built :=
    ((Built.empty.add "retired").attach "place" (Built.empty.add "no argument")).attach ""
      (Built.empty.add "no name")
  exact ⟨hearlier, hlater, attached_problems_join_in_order hearlier hlater "Orders"⟩

/-- Messages that were there stand first, also under the same route further down. -/
example : ((empty.attach "" earlier).attach "Orders" later).flatten =
    [("", "renamed"), ("Orders", "old"), ("Orders.place", "no result"), ("Orders", "retired"),
      ("Orders.", "no name"), ("Orders.place", "no argument")] := by
  decide +kernel

end BuiltProblemsWitness

end ServiceGen.Problems
