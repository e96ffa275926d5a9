import DataClient.Proofs.Command.Dispatch
import DataClient.Proofs.Resource.Kinds
import DataClient.Proofs.Table.Results

/-!
# What is taken for a record

Payloads, answers and results are records, so each of them is an object or the list of its fields
(`Command.Accepts`, `Records.InMembers`, `Records.InOrder`), and every other document is refused where it
is met: a payload before anything is sent, an answer after the one request, a result by its decoder
(`Command.records_exact`).
-/

set_option autoImplicit false

namespace DataClient

open Json.Reader

/-- The answer to the action is one item. -/
def Resource.answersItem : Action → Bool
  | .get _ => true
  | .create _ => true
  | .update _ _ => true
  | .list => false
  | .delete _ => false

/-- What is printed of an answer that is one item has been read as that item. -/
theorem Resource.Prints.exists_read {α : Type} {reader : Json.Reader α} {render : List α → String}
    {noun : String} {a : Action} {r : Response} {text : String}
    (h : Prints reader render noun a r text) (ha : answersItem a = true) :
    ∃ item, Json.read reader r.text = .ok item := by
  cases h with
  | list => cases ha
  | get _ h => exact ⟨_, h⟩
  | create _ h => exact ⟨_, h⟩
  | update _ _ h => exact ⟨_, h⟩
  | delete => cases ha

namespace Command

/-- The text of the item that a command carries. -/
def payload? : Command → Option String
  | .metrics a => Resource.payload? a
  | .tables (.basic a) => Resource.payload? a
  | .configs (.basic a) => Resource.payload? a
  | _ => none

/-- The answer to the command is one item. -/
def answersItem : Command → Bool
  | .metrics a => Resource.answersItem a
  | .tables (.basic a) => Resource.answersItem a
  | .tables (.byName _) => true
  | .configs (.basic a) => Resource.answersItem a
  | _ => false

/-- The text is a record of the kind that a command is about. -/
def Accepts : Command → String → Prop
  | .metrics _, text => IsRecord Metric.fields {} Metric.Partial.finish text
  | .tables _, text => IsRecord TableDefinition.fields {} TableDefinition.Partial.finish text
  | .configs _, text => IsRecord Configuration.fields {} Configuration.Partial.finish text
  | _, _ => False

theorem Accepts.isObject_or_isList {c : Command} {text : String} (h : c.Accepts text) :
    IsObject text ∨ IsList text := by
  cases c with
  | metrics a => exact IsRecord.isObject_or_isList h
  | tables a => exact IsRecord.isObject_or_isList h
  | configs a => exact IsRecord.isObject_or_isList h
  | query q => exact h.elim
  | «open» path sql => exact h.elim

section Readers

variable {text : String}

theorem exists_metric_iff : (∃ item, Json.read Metric.reader text = .ok item) ↔
    IsRecord Metric.fields {} Metric.Partial.finish text :=
  exists_read_iff Metric.readsValue_fields

theorem exists_table_iff : (∃ item, Json.read TableDefinition.reader text = .ok item) ↔
    IsRecord TableDefinition.fields {} TableDefinition.Partial.finish text :=
  exists_read_iff TableDefinition.readsValue_fields

theorem exists_configuration_iff : (∃ item, Json.read Configuration.reader text = .ok item) ↔
    IsRecord Configuration.fields {} Configuration.Partial.finish text :=
  exists_read_iff Configuration.readsValue_fields

end Readers

variable {format : OutputFormat} {content : Except ReadFault ByteArray}
  {exchange : Request → Except TransportError Response} {c : Command}

theorem rejected_of_payload? {json : String} (h : c.payload? = some json) (hjson : ¬ c.Accepts json)
    (content : Except ReadFault ByteArray) : c.Rejected content := by
  cases c with
  | query q => cases h
  | metrics a => exact .metrics ⟨json, h, fun item hitem => hjson (exists_metric_iff.1 ⟨item, hitem⟩)⟩
  | tables a =>
    cases a with
    | basic a => exact .tables ⟨json, h, fun item hitem => hjson (exists_table_iff.1 ⟨item, hitem⟩)⟩
    | byName name => cases h
  | configs a =>
    cases a with
    | basic a => exact .configs ⟨json, h, fun item hitem => hjson (exists_configuration_iff.1 ⟨item, hitem⟩)⟩
    | preview id => cases h
  | «open» path sql => cases h

/-- A command whose answer is one item is not rejected if what it carries is a record. -/
theorem not_rejected_of_accepts (h : c.answersItem = true)
    (hjson : ∀ json, c.payload? = some json → c.Accepts json) (content : Except ReadFault ByteArray) :
    ¬ c.Rejected content := by
  intro hrejected
  cases hrejected with
  | query => cases h
  | metrics hr =>
    obtain ⟨json, hpayload, hnone⟩ := hr
    obtain ⟨item, hitem⟩ := exists_metric_iff.2 (hjson json hpayload)
    exact hnone item hitem
  | tables hr =>
    obtain ⟨json, hpayload, hnone⟩ := hr
    obtain ⟨item, hitem⟩ := exists_table_iff.2 (hjson json hpayload)
    exact hnone item hitem
  | configs hr =>
    obtain ⟨json, hpayload, hnone⟩ := hr
    obtain ⟨item, hitem⟩ := exists_configuration_iff.2 (hjson json hpayload)
    exact hnone item hitem
  | opens => cases h

/-- Something is printed only of an answer that is a record. -/
theorem accepts_of_prints [Allocator] (h : c.answersItem = true) {r : Response} {text : String}
    (hprints : c.Prints format r text) : c.Accepts r.text := by
  cases hprints with
  | query => cases h
  | metrics hp => exact exists_metric_iff.1 (hp.exists_read h)
  | tables hp => exact exists_table_iff.1 (hp.exists_read h)
  | byName _ hread => exact exists_table_iff.1 ⟨_, hread⟩
  | configs hp => exact exists_configuration_iff.1 (hp.exists_read h)
  | preview => cases h
  | opens => cases h

theorem isQuery_eq_false (h : c.answersItem = true) : c.isQuery = false := by
  cases c with
  | query => cases h
  | metrics | tables | configs => rfl
  | «open» => cases h

theorem decode_of_ends [Allocator] (h : c.answersItem = true) {r : Response} {finish : Finish}
    (hr : r.isSuccess = true) (htext : ¬ c.Accepts r.text)
    (hends : (c.conclusion format).Ends (.ok r) finish) : ∃ why, finish = .ok (.error (.decode why)) := by
  rw [conclusion, isQuery_eq_false h, if_neg Bool.false_ne_true] at hends
  cases hends with
  | refused hr' => exact absurd hr hr'
  | printed _ hprints => exact absurd (accepts_of_prints h hprints) htext
  | unread _ _ he =>
    obtain ⟨why, rfl⟩ := he
    exact ⟨why, rfl⟩
  | crashed _ _ hcrash => exact hcrash.elim

/-- **What is taken for a record.** A result has a table exactly if it is an object with a member for
its rows, or the list of its two fields, and is regular. A payload that is neither an object nor the list
of the fields of its kind is refused before anything is sent, and so is such an answer after the one
request. Nothing but objects and lists is taken for a record at all. -/
theorem records_exact [Allocator] (format : OutputFormat) (content : Except ReadFault ByteArray)
    (exchange : Request → Except TransportError Response) :
    (∀ text, (∃ t, Records.decode text = .ok t) ↔
      ∃ r, (Records.InMembers text r ∨ Records.InOrder text r) ∧ Records.Regular r) ∧
    (∀ text, ¬ IsObject text → ¬ IsList text →
      (∀ t, Records.decode text ≠ .ok t) ∧ ∀ c : Command, ¬ c.Accepts text) ∧
    (∀ (c : Command) json, c.payload? = some json → ¬ c.Accepts json →
      ∃ why, (Plan.ofCommand format content c).through exchange = (.ok (.error (.input why)), [])) ∧
    ∀ c : Command, c.answersItem = true → (∀ json, c.payload? = some json → c.Accepts json) →
      ∃ finish r, (Plan.ofCommand format content c).through exchange = (finish, [r]) ∧
        ∀ response, exchange r = .ok response → response.isSuccess = true → ¬ c.Accepts response.text →
          ∃ why, finish = .ok (.error (.decode why)) := by
  refine ⟨fun text => Records.exists_decode_iff, fun text hobject hlist => ⟨fun t ht => ?_, fun c hc => ?_⟩,
    fun c json hjson haccepts => ?_, fun c hc hjson => ?_⟩
  · obtain ⟨r, hr, -⟩ := Records.exists_decode_iff.1 ⟨t, ht⟩
    rcases hr with hr | hr
    · obtain ⟨s, hs, -⟩ := Records.inMembers_iff.1 hr
      exact hobject hs.isObject
    · obtain ⟨s, hs, -⟩ := Records.inOrder_iff.1 hr
      exact hlist hs.isList
  · exact hc.isObject_or_isList.elim hobject hlist
  · have hrejected := rejected_of_payload? hjson haccepts content
    have hcourse := course format content c
    generalize Plan.ofCommand format content c = p at hcourse
    cases hcourse with
    | rejected why => exact ⟨why, rfl⟩
    | idle _ _ hno => exact absurd hrejected hno
    | sent hno => exact absurd hrejected hno
  · have haccepted := not_rejected_of_accepts hc hjson content
    have hcourse := course format content c
    generalize Plan.ofCommand format content c = p at hcourse
    cases hcourse with
    | rejected _ h => exact absurd h haccepted
    | idle _ h => cases h with | opens => cases hc
    | @sent r _ _ _ _ hp =>
      obtain ⟨finish, rfl, hends⟩ := hp
      refine ⟨finish (exchange r), r, rfl, fun response hx hsuccess htext => ?_⟩
      rw [hx]
      exact decode_of_ends hc hsuccess htext (hends (.ok response))

/-- The two fields of a result, as a list. -/
def positional : String := "[[\x7b\"v\":1\x7d],1]"

/-- A list is no object, and has a table all the same. -/
theorem decode_positional : (∃ t, Records.decode positional = .ok t ∧ t.rowCount = 1) ∧
    ¬ IsObject positional := by
  refine ⟨?_, ?_⟩
  · have hdecode : ∃ t ∈ (Records.decode positional).toOption, t.rowCount = 1 := by decide +kernel
    obtain ⟨t, ht, hcount⟩ := hdecode
    exact ⟨t, Outcome.toOption_eq_some.1 ht, hcount⟩
  · rintro ⟨lead, t, hlead, htext⟩
    have hhead : positional.toList.head? = some '[' := by decide +kernel
    rw [htext] at hhead
    cases lead with
    | nil => cases hhead
    | cons x lead =>
      cases hhead
      cases hlead '[' List.mem_cons_self

end Command

end DataClient
