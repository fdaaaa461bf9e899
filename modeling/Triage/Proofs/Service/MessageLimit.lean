import Triage.Proofs.Service.Atomicity
import Triage.Proofs.Service.Raising

/-!
# The length of a stored message

A creation checks the message that is asked for and stores that one or the name of the rule.  So a
message that was asked for is within the limit when it is stored, and one that was not is as long as
the name, which nothing limits.
-/

namespace Triage

namespace Store

@[simp]
theorem message_reread (s : Store) (i : Issue) : (s.reread i).message = i.message := by
  cases s <;> rfl

end Store

namespace ManualIssueRequest

variable {q : ManualIssueRequest} {rule : Rule} {max : Nat}

/-- Whether a message is asked for that is not blank. -/
def AsksMessage (q : ManualIssueRequest) : Prop := ∃ m ∈ q.message, Text.allBlank m = false

theorem storedMessage_of_asks (h : q.AsksMessage) : q.message = some (q.storedMessage rule) := by
  obtain ⟨m, hm, hblank⟩ := h
  simp_all [storedMessage]

theorem storedMessage_of_not_asks (h : ¬q.AsksMessage) : q.storedMessage rule = rule.name := by
  unfold storedMessage
  rcases hm : q.message with _ | m
  · rfl
  · have hblank : Text.allBlank m = true := by
      by_contra hne
      exact h ⟨m, hm, Bool.eq_false_iff.2 hne⟩
    simp [hblank]

/-- A message of a request within bounds is within the limit, and a missing one if the name is. -/
theorem Fits.length_storedMessage_le_iff (h : q.Fits max) :
    (q.storedMessage rule).length ≤ max ↔ q.AsksMessage ∨ rule.name.length ≤ max := by
  by_cases hasks : q.AsksMessage
  · exact ⟨fun _ => .inl hasks, fun _ => h.message _ (storedMessage_of_asks hasks)⟩
  · rw [storedMessage_of_not_asks hasks]
    exact ⟨.inr, fun hor => hor.resolve_left hasks⟩

end ManualIssueRequest

namespace Service

open World Attempt

variable {w w' : World} {limits : ServiceLimits} {principal : Principal} {q : ManualIssueRequest}
  {d : IssueDoc}

/-- A creation that succeeds, whatever was refused on the way, has fields within bounds. -/
theorem attains_create_fits (limits : ServiceLimits) (principal : Principal)
    (q : ManualIssueRequest) (w : World) : (create limits principal q).Attains alone
      (fun r _ => ∀ d, r = .ok d → q.Fits limits.maxMessageLength) w := by
  let Fit (r : Except ServiceError IssueDoc) (_ : World) : Prop :=
    ∀ d, r = .ok d → q.Fits limits.maxMessageLength
  have refused (e : ServiceError) (w' : World) : Fit (.error e) w' := fun d hd => nomatch hd
  have hraise : (inProject (findComponent q.componentKey) (raiseIssue limits principal q)).Attains
      alone (fun mutated => Fit mutated.result) w := by
    refine attains_inProject (Q := Fit) (attains_findComponent (consults_alone w)
      (fun component project _ => ?_) fun e _ => refused e w)
    refine attains_bind.2 (attains_authorize_alone ?_ (refused _ w))
    refine attains_bind.2 (attains_findManualRule (consults_alone w) (fun rule _ => ?_)
      fun e _ => refused e w)
    dsimp only [Then]
    split_ifs with hnone
    · have hfits : q.Fits limits.maxMessageLength :=
        (q.faults_fieldErrors limits).eq_nil_iff.1 (List.isEmpty_iff.1 hnone)
      exact attains_alone_of_forall fun _ _ _ _ => hfits
    · exact attains_bind.2 (refused _ w)
  refine Script.attains_bind.2 (hraise.mono fun mutated u h => ?_)
  exact Script.attains_bind.2 (Script.attains_single.2 ⟨trivial, fun _ _ _ => h⟩)

/-- What a creation has stored and indexed when it succeeds is one message.  It is the one that was
asked for, and then within the limit, or else the name of the rule; so it is within the limit just
if a message was asked for or the name is not longer. -/
theorem stored_message_length {fs : List (Option Refusal)}
    (h : (create limits principal q).run w (refusals fs) = (.returned (.ok d), w')) :
    ∃ rule row text, w.catalog.rules.get? q.ruleKey = some rule ∧
      d.message = some text ∧ w'.index.get? d.key = some d ∧
      w'.read (.selectByKey d.key) = .ok (some row) ∧ row.message = some text ∧
      (q.AsksMessage → q.message = some text) ∧ (¬q.AsksMessage → text = rule.name) ∧
      (text.length ≤ limits.maxMessageLength ↔
        q.AsksMessage ∨ rule.name.length ≤ limits.maxMessageLength) := by
  have hfits := (attains_create_fits limits principal q w).of_run h d rfl
  have hends := ((IssueCall.create principal q).attains_script limits w).of_run h
  obtain ⟨row, hraises, rfl, hindex⟩ := hends.exit.of_ok
  obtain ⟨⟨component, rule, -, hrule, hrow⟩, -, hwrites, -⟩ := Raises.stored hraises
  have hmessage : row.message = some (q.storedMessage rule) := by
    rw [hrow, ← q.getD_message rule]
    rfl
  have hread := (hwrites.holds row List.mem_cons_self).perform_selectByKey w'.clock
  refine ⟨rule, w'.store.reread row, q.storedMessage rule, hrule, hmessage, ?_, hread, ?_,
    q.storedMessage_of_asks, q.storedMessage_of_not_asks, hfits.length_storedMessage_le_iff⟩
  · rw [hindex]
    exact Index.get?_put_self w.index row.doc
  · rw [Store.message_reread, hmessage]

/-- With a limit of five characters an issue is stored whose message has six. -/
theorem stored_message_length_sample :
    ({ maxMessageLength := 5 } : ServiceLimits).validate = .ok () ∧
    ∃ d w' row, (create { maxMessageLength := 5 } ⟨⟨"gandalf"⟩, []⟩
        { componentKey := ⟨"sample"⟩, ruleKey := ⟨"manual:manualRuleKey"⟩ }).run World.sample
          (refusals []) = (.returned (.ok d), w') ∧
      d.message = some "Manual" ∧ w'.index.get? d.key = some d ∧
      w'.read (.selectByKey d.key) = .ok (some row) ∧ row.message = some "Manual" ∧
      5 < "Manual".length := by
  refine ⟨rfl, ?_⟩
  obtain ⟨d, w', hrun⟩ : ∃ d w', (create { maxMessageLength := 5 } ⟨⟨"gandalf"⟩, []⟩
      { componentKey := ⟨"sample"⟩, ruleKey := ⟨"manual:manualRuleKey"⟩ }).run World.sample
        (refusals []) = (.returned (.ok d), w') := ⟨_, _, rfl⟩
  obtain ⟨rule, row, text, hrule, hmessage, hindex, hread, hrow, -, hname, -⟩ :=
    stored_message_length hrun
  obtain rfl : ⟨⟨"manual:manualRuleKey"⟩, "Manual", true⟩ = rule := Option.some.inj hrule
  obtain rfl := hname (by rintro ⟨_, ⟨⟩, _⟩)
  exact ⟨d, w', row, hrun, hmessage, hindex, hread, hrow, by decide⟩

end Service

end Triage
