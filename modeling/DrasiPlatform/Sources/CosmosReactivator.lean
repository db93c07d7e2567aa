/-
The Cosmos DB reactivator (`Program.cs`): the Debezium event it makes of a document of the change feed
(`FormatDebeziumEvent`) and its loop over the feed.

The loop reads page after page; the iterator moves on with each page that is read. The documents of a page are formatted and
published one by one and then the continuation token is saved, all inside one `try`. What is thrown there is written to the
console, and the loop reads the next page. The process can end at any point, and starts again from the saved token, or from
`Now` where there is none.

A position in the feed is the number of changes before it; a continuation token is the position after its page. The
conversions of Newtonsoft's tokens are a parameter.

- `topic_formatted`: what is published for a change is the event that `FormatDebeziumEvent` makes of its document.
- `skips_nothing_iff`: in every state of a run all changes between the first position and the saved token, and between the
  first position and the one the loop has come to, are published, exactly when whatever is thrown leaves no change of its
  page unpublished, and the process starts without a token only while all changes since its first position are published.
Skipped: `failing_document_skipped`.
-/
import Mathlib.Tactic
import DrasiPlatform.Core.Run
import DrasiPlatform.Core.Json
import DrasiPlatform.Core.Follower

namespace DrasiPlatform.CosmosReactivator

open Json Run

/-! ## The event of a change -/

/-- conversions of a `JToken`; `none` where they throw -/
structure Newtonsoft where
  /-- `(bool)token` -/
  toBool : Value → Option Bool
  /-- `token.Value<long>()` -/
  toLong : Value → Option Int64
  /-- `token.Value<string>()` -/
  toStr : Value → Option String

structure Settings where
  changeEventSourceId : String
  partitionKey : Option String

/-- `token[key]`, which throws on what is no object; a missing field is the null of C#, on which the next access throws -/
def item (token : Value) (key : String) : Option (Option Value) :=
  match token with
  | .object fields => some (fields.lookup key)
  | _ => none

/-- `debState`, with its two collections -/
structure DebState where
  labels : List Value
  properties : List (String × Value)
  fields : List (String × Value)

def DebState.json (d : DebState) : Value :=
  .object (("labels", .array d.labels) :: ("properties", .object d.properties) :: d.fields)

/-- `((JObject)((JArray)value)[0])["_value"]` -/
def propertyValue (value : Value) : Option Value :=
  match value with
  | .array (.object content :: _) => some ((content.lookup "_value").getD .null)
  | _ => none

/-- the body of the loop over `source.Children()` -/
def addChild (partitionKey : Option String) (isRelation : Bool) (d : DebState) (child : String × Value) :
    Option DebState :=
  if child.1 = "id" then some { d with fields := Value.setField "id" child.2 d.fields }
  else if partitionKey = some child.1 then some { d with properties := Value.setField child.1 child.2 d.properties }
  else if child.1 = "label" then some { d with labels := d.labels ++ [child.2] }
  else if child.1.toList.head? = some '_' then
    if isRelation then
      if child.1 = "_vertexId" then some { d with fields := Value.setField "startId" child.2 d.fields }
      else if child.1 = "_sink" then some { d with fields := Value.setField "endId" child.2 d.fields }
      else some d
    else some d
  else (propertyValue child.2).map fun v => { d with properties := Value.setField child.1 v d.properties }

/-- the switch over the operation: its letter, the state of the element, and whether that is the state before -/
def operation (feedEvent : Value) (operationType : String) : Option (String × Option Value × Bool) :=
  match operationType with
  | "create" => (item feedEvent "current").map fun source => ("i", source, false)
  | "replace" => (item feedEvent "current").map fun source => ("u", source, false)
  | "delete" => (item feedEvent "previous").map fun source => ("d", source, true)
  | _ => none

def formatDebeziumEvent (N : Newtonsoft) (cfg : Settings) (feedEvent : Value) (lsn startNs endNs : Int64) :
    Option Value := do
  let metadata ← (← item feedEvent "metadata")
  let operationType ← (← item metadata "operationType")
  let (op, state, before) ← operation feedEvent (← N.toStr operationType)
  let source ← state
  let isRelation ← match ← item source "_isEdge" with
    | some edge => N.toBool edge
    | none => some false
  let seconds ← N.toLong (← (← item source "_ts"))
  let children ← match source with
    | .object fields => some fields
    | _ => none
  let debState ← children.foldlM (addChild cfg.partitionKey isRelation) ⟨[], [], []⟩
  let debSource := Value.object [("lsn", Value.ofInt64 lsn), ("ts_ns", Value.ofInt64 (seconds * 1000000000)),
    ("db", .string cfg.changeEventSourceId), ("table", .string (if isRelation then "rel" else "node"))]
  let debPayload := Value.object [("source", debSource), ("before", if before then debState.json else .object []),
    ("after", if before then .object [] else debState.json)]
  return .object [("op", .string op), ("payload", debPayload), ("reactivatorStart_ns", Value.ofInt64 startNs),
    ("reactivatorEnd_ns", Value.ofInt64 endNs)]

/-! ## The loop -/

/-- where the process stands; a page is published up to `next` and ends at `last` -/
inductive Process where
  | down
  | reading (token : ℕ)
  | inPage (next last : ℕ) (reactivatorStartTime : Int64)

/-- the position the loop has come to -/
def Process.position : Process → Option ℕ
  | .down => none
  | .reading token => some token
  | .inPage next _ _ => some next

structure Reactivator where
  /-- the change feed up to now -/
  feed : List Value
  /-- where the reactivator first started -/
  first : Option ℕ
  process : Process
  /-- the published events, each with the position of its change -/
  topic : List (ℕ × Value)
  stored : Option ℕ

namespace Reactivator

def initial (feed : List Value) (stored : Option ℕ) : Reactivator := ⟨feed, none, .down, [], stored⟩

inductive Op where
  | change (document : Value)
  | start
  /-- a page of the next `n` changes -/
  | page (n : ℕ) (reactivatorStartTime : Int64)
  /-- the next document of the page is formatted and published -/
  | document (lsn endNs : Int64) (publish : Call)
  | saveState (call : Call)
  /-- the process ends at this point -/
  | crash

/-- the saved token, or `Now` -/
def startCursor (s : Reactivator) : ℕ := s.stored.getD s.feed.length

/-- the event of the change at a position -/
def event (N : Newtonsoft) (cfg : Settings) (s : Reactivator) (i : ℕ) (lsn startNs endNs : Int64) : Option Value :=
  s.feed[i]?.bind fun document => formatDebeziumEvent N cfg document lsn startNs endNs

/-- a step that the process cannot take leaves the state as it is -/
def step (N : Newtonsoft) (cfg : Settings) (s : Reactivator) : Op → Reactivator
  | .change document => { s with feed := s.feed ++ [document] }
  | .start =>
    match s.process with
    | .down => { s with process := .reading s.startCursor, first := s.first.or (some s.startCursor) }
    | _ => s
  | .page n startNs =>
    match s.process with
    | .reading token =>
      if token + n ≤ s.feed.length then { s with process := .inPage token (token + n) startNs } else s
    | _ => s
  | .document lsn endNs publish =>
    match s.process with
    | .inPage next last startNs =>
      if next < last then
        match s.event N cfg next lsn startNs endNs with
        | none => { s with process := .reading last }
        | some e =>
          { s with
            topic := if publish.effect then s.topic ++ [(next, e)] else s.topic
            process := if publish.ok then .inPage (next + 1) last startNs else .reading last }
      else s
    | _ => s
  | .saveState call =>
    match s.process with
    | .inPage next last _ =>
      if next = last then
        { s with process := .reading last, stored := if call.effect then some last else s.stored }
      else s
    | _ => s
  | .crash => { s with process := .down }

/-- the event of the change at this position is published -/
def Published (s : Reactivator) (i : ℕ) : Prop := ∃ e, (i, e) ∈ s.topic

def follower (s : Reactivator) : Follower where
  first := s.first
  cursor := s.process.position
  stored := s.stored
  handed := s.Published
  published := s.Published

/-- since the first position, no change before the saved token or before the position of the loop is unpublished -/
def SkipsNothing (s : Reactivator) : Prop := s.follower.Safe

/-- nothing is lost where a document throws, and nothing where the process starts without a token -/
def Careful (N : Newtonsoft) (cfg : Settings) (s : Reactivator) : Op → Prop
  | .start => s.process = .down → s.stored = none → ∀ a, s.first = some a → Covers s.Published a s.feed.length
  | .document lsn endNs publish => ∀ next last startNs, s.process = .inPage next last startNs → next < last →
      (s.event N cfg next lsn startNs endNs = none ∨ publish.ok = false) → ∀ i, next ≤ i → i < last →
        s.Published i ∨ i = next ∧ s.event N cfg next lsn startNs endNs ≠ none ∧ publish.effect = true
  | _ => True

structure Inv (s : Reactivator) : Prop where
  begun : s.process.position ≠ none → s.first ≠ none
  cursor : ∀ a p, s.first = some a → s.process.position = some p → a ≤ p
  stored : ∀ a p, s.first = some a → s.stored = some p → a ≤ p
  now : ∀ a, s.first = some a → s.stored = none → a ≤ s.feed.length
  page : ∀ next last startNs, s.process = .inPage next last startNs → next ≤ last

/-! ## What a step keeps -/

variable {N : Newtonsoft} {cfg : Settings} {s : Reactivator}

theorem inv_initial (feed : List Value) (stored : Option ℕ) : (initial feed stored).Inv where
  begun h := absurd rfl h
  cursor _ _ h := by cases h
  stored _ _ h := by cases h
  now _ h := by cases h
  page _ _ _ h := by cases h

/-- the process goes on at a later position of its page or behind it, or ends -/
theorem Inv.move (h : s.Inv) {process : Process} {topic : List (ℕ × Value)} {p : ℕ}
    (hp : s.process.position = some p) (hpos : ∀ q, process.position = some q → p ≤ q)
    (hpage : ∀ next last startNs, process = .inPage next last startNs → next ≤ last) :
    ({ s with process := process, topic := topic } : Reactivator).Inv where
  begun _ := h.begun (by simp [hp])
  cursor a q ha hq := (h.cursor a p ha hp).trans (hpos q hq)
  stored := h.stored
  now := h.now
  page := hpage

theorem start_inv (h : s.Inv) (hdown : s.process = .down) : (step N cfg s .start).Inv := by
  simp only [step, hdown]
  have hcursor : ∀ a, s.first = some a → a ≤ s.startCursor := by
    intro a ha
    cases hs : s.stored with
    | none => simpa [startCursor, hs] using h.now a ha hs
    | some q => simpa [startCursor, hs] using h.stored a q ha hs
  have hfirst : ∀ a, s.first.or (some s.startCursor) = some a → a ≤ s.startCursor := fun a ha =>
    Follower.le_of_begins ha hcursor
  constructor
  · intro _
    cases s.first <;> simp
  · intro a p ha hp
    obtain rfl : s.startCursor = p := Option.some.inj hp
    exact hfirst a ha
  · intro a p ha hp
    have hcur : s.startCursor = p := by simp [startCursor, show s.stored = some p from hp]
    exact hcur ▸ hfirst a ha
  · intro a ha hs
    have hlen : s.startCursor = s.feed.length := by simp [startCursor, show s.stored = none from hs]
    exact hlen ▸ hfirst a ha
  · intro _ _ _ hp
    cases hp

theorem step_inv (op : Op) (h : s.Inv) : (step N cfg s op).Inv := by
  cases op with
  | change document =>
    refine ⟨h.begun, h.cursor, h.stored, fun a ha hs => ?_, h.page⟩
    have hlen : (step N cfg s (.change document)).feed.length = s.feed.length + 1 := by simp [step]
    have := h.now a ha hs
    omega
  | start =>
    cases hp : s.process with
    | down => exact start_inv h hp
    | reading _ | inPage _ _ _ => simpa only [step, hp] using h
  | page n startNs =>
    cases hp : s.process with
    | reading token =>
      simp only [step, hp]
      split
      · refine h.move (p := token) (by rw [hp]; rfl) (fun q hq => (Option.some.inj hq).le) fun next last _ heq => ?_
        cases heq
        omega
      · exact h
    | down | inPage _ _ _ => simpa only [step, hp] using h
  | document lsn endNs publish =>
    cases hp : s.process with
    | inPage next last startNs =>
      simp only [step, hp]
      split
      · rename_i hlt
        split
        · refine h.move (p := next) (by rw [hp]; rfl) (fun q hq => ?_) fun _ _ _ heq => by cases heq
          have hq' : last = q := Option.some.inj hq
          omega
        · cases hok : publish.ok with
          | false =>
            refine h.move (p := next) (by rw [hp]; rfl) (fun q hq => ?_) fun _ _ _ heq => by cases heq
            have hq' : last = q := Option.some.inj hq
            omega
          | true =>
            refine h.move (p := next) (by rw [hp]; rfl) (fun q hq => ?_) fun _ _ _ heq => ?_
            · have hq' : next + 1 = q := Option.some.inj hq
              omega
            · cases heq
              omega
      · exact h
    | down | reading _ => simpa only [step, hp] using h
  | saveState call =>
    cases hp : s.process with
    | inPage next last startNs =>
      simp only [step, hp]
      split
      · rename_i heq
        subst heq
        have hmoved : ({ s with process := .reading next } : Reactivator).Inv :=
          h.move (p := next) (by rw [hp]; rfl) (fun q hq => (Option.some.inj hq).le) fun _ _ _ heq => by cases heq
        cases hsave : call.effect with
        | false => exact hmoved
        | true =>
          refine ⟨hmoved.begun, hmoved.cursor, fun a p ha hstored => ?_, fun _ _ hstored => (by cases hstored), hmoved.page⟩
          obtain rfl : next = p := Option.some.inj hstored
          exact hmoved.cursor a next ha rfl
      · exact h
    | down | reading _ => simpa only [step, hp] using h
  | crash =>
    exact ⟨fun hne => absurd rfl hne, fun _ _ _ hp => (by cases hp), h.stored, h.now, fun _ _ _ hp => (by cases hp)⟩

/-! ## When nothing is skipped -/

/-- a running process that goes on from `p` to `q` skips nothing exactly when the changes in between are published -/
theorem moved_iff (h : s.Inv) (hsafe : s.SkipsNothing) {process : Process} {topic : List (ℕ × Value)} {p q : ℕ}
    (hp : s.process.position = some p) (hq : process.position = some q) (hpq : p ≤ q)
    (htopic : ∀ x ∈ s.topic, x ∈ topic) :
    ({ s with process := process, topic := topic } : Reactivator).SkipsNothing ↔
      Covers (fun i => ∃ e, (i, e) ∈ topic) p q := by
  obtain ⟨a, ha⟩ : ∃ a, s.first = some a := Option.ne_none_iff_exists'.1 (h.begun (by simp [hp]))
  have hgrow : ∀ i, s.Published i → ∃ e, (i, e) ∈ topic := fun i ⟨e, he⟩ => ⟨e, htopic _ he⟩
  have hadvances : Follower.Advances s.follower { s with process := process, topic := topic }.follower p q :=
    ⟨⟨rfl, rfl, hgrow, hq⟩, hp, hgrow, hpq⟩
  exact hadvances.safe_iff hsafe ⟨a, ha, h.cursor a p ha hp⟩

theorem start_iff (hsafe : s.SkipsNothing) (hdown : s.process = .down) :
    (step N cfg s .start).SkipsNothing ↔ Careful N cfg s .start := by
  have hmove : (step N cfg s .start).follower = s.follower.moveTo s.startCursor := by
    simp only [step, hdown]
    rfl
  have hstored : s.follower.first = none → ∀ q, s.follower.stored = some q → q ≤ s.startCursor := by
    intro _ q hq
    simp [startCursor, show s.stored = some q from hq]
  rw [SkipsNothing, hmove, Follower.safe_moveTo_iff hsafe hstored]
  constructor
  · intro h _ hnone a ha
    have hlen : s.startCursor = s.feed.length := by simp [startCursor, hnone]
    exact hlen ▸ h a ha
  · intro h a ha
    cases hs : s.stored with
    | none =>
      have hlen : s.startCursor = s.feed.length := by simp [startCursor, hs]
      exact hlen ▸ h hdown hs a ha
    | some q =>
      have hq : s.startCursor = q := by simp [startCursor, hs]
      exact hq ▸ hsafe.stored a q ha hs

theorem document_iff (h : s.Inv) (hsafe : s.SkipsNothing) (lsn endNs : Int64) (publish : Call) :
    (step N cfg s (.document lsn endNs publish)).SkipsNothing ↔ Careful N cfg s (.document lsn endNs publish) := by
  cases hp : s.process with
  | down | reading _ => exact iff_of_true (by simpa only [step, hp] using hsafe) fun _ _ _ heq => by cases hp.symm.trans heq
  | inPage next last startNs =>
    by_cases hlt : next < last
    · have hpos : s.process.position = some next := by rw [hp]; rfl
      have hcareful : Careful N cfg s (.document lsn endNs publish) ↔
          ((s.event N cfg next lsn startNs endNs = none ∨ publish.ok = false) → ∀ i, next ≤ i → i < last →
            s.Published i ∨ i = next ∧ s.event N cfg next lsn startNs endNs ≠ none ∧ publish.effect = true) := by
        constructor
        · intro hc
          exact hc next last startNs hp hlt
        · intro hc next' last' startNs' heq _
          obtain ⟨rfl, rfl, rfl⟩ := Process.inPage.inj (hp.symm.trans heq)
          exact hc
      rw [hcareful]
      cases he : s.event N cfg next lsn startNs endNs with
      | none =>
        have hstep : step N cfg s (.document lsn endNs publish) = { s with process := .reading last } := by
          simp only [step, hp, if_pos hlt, he]
        rw [hstep, moved_iff h hsafe (q := last) hpos rfl hlt.le fun _ hx => hx]
        simp [Covers, Published]
      | some e =>
        have hstep : step N cfg s (.document lsn endNs publish) =
            { s with
              topic := if publish.effect then s.topic ++ [(next, e)] else s.topic
              process := if publish.ok then .inPage (next + 1) last startNs else .reading last } := by
          simp only [step, hp, if_pos hlt, he]
        have htopic : ∀ x ∈ s.topic, x ∈ if publish.effect then s.topic ++ [(next, e)] else s.topic := by
          intro x hx
          split
          · exact List.mem_append_left _ hx
          · exact hx
        rw [hstep]
        cases publish with
        | returns =>
          rw [moved_iff h hsafe (q := next + 1) hpos rfl (by omega) htopic]
          refine iff_of_true (fun i hi hi' => ⟨e, ?_⟩) (by simp [Call.ok])
          have hi'' : i = next := by omega
          simp [hi'', Call.effect]
        | fails =>
          rw [moved_iff h hsafe (q := last) hpos rfl hlt.le htopic]
          simp [Covers, Published, Call.effect, Call.ok]
        | failsAfter =>
          rw [moved_iff h hsafe (q := last) hpos rfl hlt.le htopic]
          simp [Covers, Published, Call.effect, Call.ok, exists_or]
    · refine iff_of_true (by simpa only [step, hp, if_neg hlt] using hsafe) fun next' last' _ heq hlt' => ?_
      obtain ⟨rfl, rfl, -⟩ := Process.inPage.inj (hp.symm.trans heq)
      exact absurd hlt' hlt

theorem saveState_skipsNothing (h : s.Inv) (hsafe : s.SkipsNothing) (call : Call) :
    (step N cfg s (.saveState call)).SkipsNothing := by
  cases hp : s.process with
  | down | reading _ => simpa only [step, hp] using hsafe
  | inPage next last startNs =>
    by_cases heq : next = last
    · subst heq
      have hpos : s.process.position = some next := by rw [hp]; rfl
      have hread : ({ s with process := .reading next } : Reactivator).SkipsNothing :=
        (moved_iff h hsafe hpos rfl le_rfl fun _ hx => hx).2 (Covers.empty le_rfl)
      simp only [step, hp, if_true]
      cases call.effect with
      | false => exact hread
      | true => exact (Follower.safe_store_iff hread).2 fun a ha => hsafe.cursor a next ha hpos
    · simpa only [step, hp, if_neg heq] using hsafe

/-- **What one step needs.** -/
theorem step_iff (op : Op) (h : s.Inv) (hsafe : s.SkipsNothing) :
    (step N cfg s op).SkipsNothing ↔ Careful N cfg s op := by
  cases op with
  | change document => exact iff_of_true hsafe trivial
  | start =>
    by_cases hdown : s.process = .down
    · exact start_iff hsafe hdown
    · refine iff_of_true ?_ fun h' => absurd h' hdown
      cases hp : s.process with
      | down => exact absurd hp hdown
      | reading _ | inPage _ _ _ => simpa only [step, hp] using hsafe
  | page n startNs =>
    refine iff_of_true ?_ trivial
    cases hp : s.process with
    | reading token =>
      simp only [step, hp]
      split
      · exact (moved_iff h hsafe (p := token) (q := token) (by rw [hp]; rfl) rfl le_rfl fun _ hx => hx).2
          (Covers.empty le_rfl)
      · exact hsafe
    | down | inPage _ _ _ => simpa only [step, hp] using hsafe
  | document lsn endNs publish => exact document_iff h hsafe lsn endNs publish
  | saveState call => exact iff_of_true (saveState_skipsNothing h hsafe call) trivial
  | crash =>
    have hgrows : Follower.Grows s.follower (step N cfg s .crash).follower :=
      ⟨rfl, rfl, fun _ hi => hi, fun _ hc => (by cases hc)⟩
    exact iff_of_true (hgrows.safe hsafe) trivial

/-- **When the reactivator skips no change.** -/
theorem skips_nothing_iff (N : Newtonsoft) (cfg : Settings) (feed : List Value) (stored : Option ℕ) (ops : List Op) :
    Throughout (step N cfg) SkipsNothing (initial feed stored) ops ↔
      Meets (step N cfg) (Careful N cfg) (initial feed stored) ops := by
  have hlegal : Meets (step N cfg) (fun _ _ => True) (initial feed stored) ops := meets_iff_forall.2 fun _ _ => trivial
  refine throughout_iff_meets Inv (fun s op h _ => step_inv op h) (fun s op h _ hsafe => step_iff op h hsafe)
    (inv_initial feed stored) ⟨?_, ?_⟩ hlegal
  · intro a p ha
    cases ha
  · intro a p ha
    cases ha

/-! ## What is published -/

/-- every event of the topic is the one of its change -/
def Formatted (N : Newtonsoft) (cfg : Settings) (s : Reactivator) : Prop :=
  ∀ x ∈ s.topic, ∃ document ∈ s.feed[x.1]?, ∃ lsn startNs endNs,
    formatDebeziumEvent N cfg document lsn startNs endNs = some x.2

theorem step_formatted (op : Op) (h : Formatted N cfg s) : Formatted N cfg (step N cfg s op) := by
  cases op with
  | change document =>
    intro x hx
    obtain ⟨document', hd, hformat⟩ := h x hx
    have hlt : x.1 < s.feed.length := (List.getElem?_eq_some_iff.1 hd).1
    exact ⟨document', by simpa only [step, List.getElem?_append_left hlt] using hd, hformat⟩
  | document lsn endNs publish =>
    simp only [step]
    split
    · split
      · split
        · exact h
        · rename_i next last startNs hp hlt _ e he
          intro x hx
          have hx' : x ∈ s.topic ∨ x = (next, e) := by
            cases hpub : publish.effect with
            | false => exact Or.inl (by simpa [hpub] using hx)
            | true => simpa [hpub] using hx
          rcases hx' with hx' | rfl
          · exact h x hx'
          · obtain ⟨document, hd, hformat⟩ := Option.bind_eq_some_iff.1 he
            exact ⟨document, hd, lsn, startNs, endNs, hformat⟩
      · exact h
    · exact h
  | start =>
    simp only [step]
    split
    · exact h
    · exact h
  | page n startNs =>
    simp only [step]
    split
    · split
      · exact h
      · exact h
    · exact h
  | saveState call =>
    simp only [step]
    split
    · split
      · exact h
      · exact h
    · exact h
  | crash => exact h

/-- **What is published for a change is its event.** -/
theorem topic_formatted (N : Newtonsoft) (cfg : Settings) (feed : List Value) (stored : Option ℕ) (ops : List Op) :
    Formatted N cfg (run (step N cfg) (initial feed stored) ops) :=
  run_inv (fun _ op h => step_formatted op h) _ ops fun _ hx => by cases hx

/-! ## Skipped changes -/

def plain : Newtonsoft where
  toBool
    | .bool b => some b
    | _ => none
  toLong token := token.asU64.map UInt64.toInt64
  toStr := Value.asStr

def created (id : String) : Value :=
  .object [("current", .object [("id", .string id), ("label", .string "Item"), ("_ts", .number (.posInt 1700000000)),
      ("name", .array [.object [("_value", .string "box")]])]),
    ("metadata", .object [("operationType", .string "create")])]

/-- three changes; the publication of the first fails, in a page with the second; the page after it goes well -/
def failingPage : List Op :=
  [.start, .change (created "1"), .change (created "2"), .page 2 0, .document 1 0 .fails,
    .change (created "3"), .page 1 0, .document 2 0 .returns, .saveState .returns]

/-- a change is published, the process ends before its token is saved, and two changes come before it starts again -/
def lateToken : List Op :=
  [.start, .change (created "1"), .page 1 0, .document 1 0 .returns, .crash, .change (created "2"), .start,
    .change (created "3"), .page 1 0, .document 2 0 .returns, .saveState .returns]

theorem published_of_topic (positions : List ℕ) (ht : s.topic.map Prod.fst = positions) {i : ℕ} (hi : s.Published i) :
    i ∈ positions := by
  obtain ⟨e, he⟩ := hi
  exact ht ▸ List.mem_map_of_mem he

/-- the saved token is behind the third change, and the first two, or the second, are published nowhere -/
theorem failing_document_skipped :
    ¬Throughout (step plain ⟨"db.items", some "name"⟩) SkipsNothing (initial [] none) failingPage ∧
      ¬Throughout (step plain ⟨"db.items", some "name"⟩) SkipsNothing (initial [] none) lateToken := by
  constructor
  · intro h
    have hpub := h.last.stored 0 3 (by decide) (by decide) 0 (by omega) (by omega)
    have hmem := published_of_topic [2] (by decide) hpub
    exact absurd hmem (by decide)
  · intro h
    have hpub := h.last.stored 0 3 (by decide) (by decide) 1 (by omega) (by omega)
    have hmem := published_of_topic [0, 2] (by decide) hpub
    exact absurd hmem (by decide)

end Reactivator

end DrasiPlatform.CosmosReactivator
