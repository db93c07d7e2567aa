/-
The Gremlin reaction (`GremlinService.cs`, `GremlinChangeHandler.cs`): a command for each row of a change, with the values of
the row bound to the parameters of the command.

The parameters are the matches of `@[a-zA-Z0-9-_.]*` in the configured text; for each match in turn the mark is taken out
before every occurrence of its name. A row binds a name to the text of a value; a name that is missing throws, and so does a
value that is null.

- `prepare_command`: what is submitted is the configured text without any mark, whatever its parameters.
- `prepare_params`: the parameters are the names after the marks, each one once.
- `gremlin_inOrder`: the commands of an event are submitted one after the other, as the rows ask for.
- `gremlin_submits`: so, whatever runs at the same time, an acknowledged event has submitted for each of its rows the text
  without marks, with exactly the names after the marks bound to the values of the row.
-/
import Mathlib.Tactic
import DrasiPlatform.Reactions.Forwarders

namespace DrasiPlatform.Gremlin

open Programs Forwarding Forwarders Run
open SignalR (ChangeEvent UpdatedResultElement)

/-! ## The commands -/

abbrev Text := List Char

/-- a character of the class `[a-zA-Z0-9-_.]` -/
def isParamChar (c : Char) : Bool := c.isAlphanum || c = '-' || c = '_' || c = '.'

/-- the matches, without their mark: the mark is in no name, so a match begins at every mark -/
def paramMatches : Text → List Text
  | [] => []
  | c :: cs => if c = '@' then cs.takeWhile isParamChar :: paramMatches cs else paramMatches cs

/-- `String.Replace`: the occurrences from left to right, the rest of an occurrence skipped -/
def replaceFrom (old new : Text) : ℕ → Text → Text
  | _, [] => []
  | skip + 1, _ :: cs => replaceFrom old new skip cs
  | 0, c :: cs =>
    if old.isPrefixOf (c :: cs) then new ++ replaceFrom old new (old.length - 1) cs else c :: replaceFrom old new 0 cs

def replace (command old new : Text) : Text := replaceFrom old new 0 command

structure Command where
  text : Text
  paramList : List Text

/-- what the constructor makes of a configured command -/
def prepare (configured : Text) : Command :=
  (paramMatches configured).foldl (fun command param =>
    ⟨replace command.text ('@' :: param) param,
      if param ∈ command.paramList then command.paramList else command.paramList ++ [param]⟩) ⟨configured, []⟩

/-! ### The marks go -/

/-- the mark goes before every occurrence of the name -/
def unmark (param : Text) : Text → Text
  | [] => []
  | c :: cs => if c = '@' ∧ param <+: cs then unmark param cs else c :: unmark param cs

theorem unmark_append {param front : Text} (h : '@' ∉ front) (cs : Text) :
    unmark param (front ++ cs) = front ++ unmark param cs := by
  induction front with
  | nil => rfl
  | cons c front ih =>
    obtain ⟨hc, hfront⟩ := not_or.1 (List.mem_cons.not.1 h)
    have hnot : ¬ (c = '@' ∧ param <+: front ++ cs) := fun hmark => hc hmark.1.symm
    rw [List.cons_append, unmark, if_neg hnot, ih hfront, List.cons_append]

theorem replaceFrom_skip (old new front cs : Text) :
    replaceFrom old new front.length (front ++ cs) = replaceFrom old new 0 cs := by
  induction front with
  | nil => rfl
  | cons c front ih => exact ih

theorem replace_eq {param : Text} (h : '@' ∉ param) (command : Text) :
    replace command ('@' :: param) param = unmark param command := by
  have hgo : ∀ n (cs : Text), cs.length ≤ n → replaceFrom ('@' :: param) param 0 cs = unmark param cs := by
    intro n
    induction n with
    | zero =>
      intro cs hcs
      rw [List.length_eq_zero_iff.1 (Nat.le_zero.1 hcs)]
      rfl
    | succ n ih =>
      intro cs hcs
      cases cs with
      | nil => rfl
      | cons c cs =>
        have hprefixed : ('@' :: param).isPrefixOf (c :: cs) = true ↔ c = '@' ∧ param <+: cs := by
          rw [List.isPrefixOf_iff_prefix, List.cons_prefix_cons, eq_comm]
        rw [replaceFrom, unmark]
        by_cases hmark : c = '@' ∧ param <+: cs
        · rw [if_pos (hprefixed.2 hmark), if_pos hmark]
          obtain ⟨-, rest, rfl⟩ := hmark
          have hrest : rest.length ≤ n := by
            rw [List.length_cons, List.length_append] at hcs
            omega
          rw [List.length_cons, Nat.add_sub_cancel, replaceFrom_skip, unmark_append h, ih rest hrest]
        · rw [if_neg (hprefixed.not.2 hmark), if_neg hmark, ih cs (Nat.le_of_succ_le_succ hcs)]
  exact hgo _ command (le_refl _)

def withoutMarks (text : Text) : Text := text.filter (· ≠ '@')

theorem withoutMarks_unmark (param text : Text) : withoutMarks (unmark param text) = withoutMarks text := by
  induction text with
  | nil => rfl
  | cons c cs ih =>
    rw [unmark]
    split_ifs with hmark
    · rw [ih, withoutMarks, withoutMarks, hmark.1]
      rfl
    · rw [withoutMarks, List.filter_cons, withoutMarks, List.filter_cons, ← withoutMarks, ← withoutMarks, ih]

/-- a mark that is left has not been before the name -/
theorem suffix_unmark {param text cs : Text} (h : '@' :: cs <:+ unmark param text) :
    ∃ before, '@' :: before <:+ text ∧ ¬ param <+: before ∧ cs = unmark param before := by
  induction text with
  | nil => exact absurd (List.suffix_nil.1 h) (List.cons_ne_nil _ _)
  | cons c text ih =>
    rw [unmark] at h
    split_ifs at h with hmark
    · obtain ⟨before, hbefore, hrest⟩ := ih h
      exact ⟨before, hbefore.trans (List.suffix_cons c text), hrest⟩
    · rcases List.suffix_cons_iff.1 h with heq | h
      · obtain ⟨rfl, rfl⟩ := List.cons.inj heq
        exact ⟨text, List.suffix_refl _, fun hp => hmark ⟨rfl, hp⟩, rfl⟩
      · obtain ⟨before, hbefore, hrest⟩ := ih h
        exact ⟨before, hbefore.trans (List.suffix_cons c text), hrest⟩

theorem noMark_of_mem_matches {configured param : Text} (h : param ∈ paramMatches configured) : '@' ∉ param := by
  induction configured with
  | nil => cases h
  | cons c cs ih =>
    rw [paramMatches] at h
    split_ifs at h
    · rcases List.mem_cons.1 h with rfl | h
      · intro hmem
        have hchar : isParamChar '@' = true := List.all_eq_true.1 (List.all_takeWhile) _ hmem
        cases hchar
      · exact ih h
    · exact ih h

/-- a match begins at every mark -/
theorem exists_match {configured cs : Text} (h : '@' :: cs <:+ configured) :
    ∃ param ∈ paramMatches configured, param <+: cs := by
  induction configured with
  | nil => exact absurd (List.suffix_nil.1 h) (List.cons_ne_nil _ _)
  | cons c configured ih =>
    rw [paramMatches]
    rcases List.suffix_cons_iff.1 h with heq | h
    · obtain ⟨rfl, rfl⟩ := List.cons.inj heq
      exact ⟨_, by rw [if_pos rfl]; exact List.mem_cons_self, List.takeWhile_prefix _⟩
    · obtain ⟨param, hparam, hbegin⟩ := ih h
      refine ⟨param, ?_, hbegin⟩
      split_ifs
      · exact List.mem_cons_of_mem _ hparam
      · exact hparam

/-- when every name that a mark may stand before has had its turn, no mark is left -/
theorem noMark_foldl {params : List Text} (hparams : ∀ param ∈ params, '@' ∉ param) {text : Text}
    (h : ∀ cs, '@' :: cs <:+ text → ∃ param ∈ params, param <+: cs) :
    '@' ∉ params.foldl (fun text param => unmark param text) text := by
  induction params generalizing text with
  | nil =>
    intro hmem
    obtain ⟨front, cs, rfl⟩ := List.append_of_mem hmem
    obtain ⟨_, hnone, _⟩ := h cs (List.suffix_append _ _)
    cases hnone
  | cons first params ih =>
    refine ih (fun param hparam => hparams param (List.mem_cons_of_mem _ hparam)) fun cs hcs => ?_
    obtain ⟨before, hbefore, hnot, rfl⟩ := suffix_unmark hcs
    obtain ⟨param, hparam, hbegin⟩ := h before hbefore
    rcases List.mem_cons.1 hparam with rfl | hparam
    · exact absurd hbegin hnot
    · obtain ⟨rest, rfl⟩ := hbegin
      refine ⟨param, hparam, ?_⟩
      rw [unmark_append (hparams param (List.mem_cons_of_mem _ hparam))]
      exact List.prefix_append _ _

theorem withoutMarks_foldl (params : List Text) (text : Text) :
    withoutMarks (params.foldl (fun text param => unmark param text) text) = withoutMarks text := by
  induction params generalizing text with
  | nil => rfl
  | cons param params ih => rw [List.foldl_cons, ih, withoutMarks_unmark]

theorem prepare_eq (configured : Text) : prepare configured =
    ⟨(paramMatches configured).foldl (fun text param => unmark param text) configured,
      (paramMatches configured).foldl (fun list param => if param ∈ list then list else list ++ [param]) []⟩ := by
  have hfold : ∀ (params : List Text) (text : Text) (list : List Text), (∀ param ∈ params, '@' ∉ param) →
      params.foldl (fun command param => Command.mk (replace command.text ('@' :: param) param)
        (if param ∈ command.paramList then command.paramList else command.paramList ++ [param])) ⟨text, list⟩ =
      ⟨params.foldl (fun text param => unmark param text) text,
        params.foldl (fun list param => if param ∈ list then list else list ++ [param]) list⟩ := by
    intro params
    induction params with
    | nil => exact fun _ _ _ => rfl
    | cons param params ih =>
      intro text list h
      rw [List.foldl_cons, List.foldl_cons, List.foldl_cons, ← replace_eq (h param List.mem_cons_self)]
      exact ih _ _ fun other hother => h other (List.mem_cons_of_mem _ hother)
  exact hfold _ _ _ fun param hparam => noMark_of_mem_matches hparam

/-- **What is submitted is the configured text without any mark.** -/
theorem prepare_command (configured : Text) : (prepare configured).text = withoutMarks configured := by
  have hnone : '@' ∉ (prepare configured).text := by
    rw [prepare_eq]
    exact noMark_foldl (fun param hparam => noMark_of_mem_matches hparam) fun cs hcs => exists_match hcs
  have hsame : withoutMarks (prepare configured).text = withoutMarks configured := by
    rw [prepare_eq]
    exact withoutMarks_foldl _ _
  rw [← hsame, withoutMarks, List.filter_eq_self.2]
  intro c hc
  exact decide_eq_true fun heq => hnone (heq ▸ hc)

/-- **The parameters are the names after the marks**, each one once. -/
theorem prepare_params (configured : Text) : (prepare configured).paramList.Nodup ∧
    ∀ param, param ∈ (prepare configured).paramList ↔ param ∈ paramMatches configured := by
  have hfold : ∀ (params list : List Text), list.Nodup →
      (params.foldl (fun list param => if param ∈ list then list else list ++ [param]) list).Nodup ∧
      ∀ param, param ∈ params.foldl (fun list param => if param ∈ list then list else list ++ [param]) list ↔
        param ∈ list ∨ param ∈ params := by
    intro params
    induction params with
    | nil => exact fun list h => ⟨h, fun param => by simp⟩
    | cons first params ih =>
      intro list h
      rw [List.foldl_cons]
      split_ifs with hmem
      · refine ⟨(ih list h).1, fun param => ?_⟩
        rw [(ih list h).2 param, List.mem_cons]
        exact ⟨fun hp => hp.imp_right .inr, fun hp => hp.elim .inl fun hp => hp.elim (fun heq => .inl (heq ▸ hmem)) .inr⟩
      · have hnodup : (list ++ [first]).Nodup := by
          rw [List.nodup_append]
          exact ⟨h, List.nodup_singleton _, fun a ha b hb heq => hmem (List.mem_singleton.1 hb ▸ heq ▸ ha)⟩
        refine ⟨(ih _ hnodup).1, fun param => ?_⟩
        rw [(ih _ hnodup).2 param, List.mem_append, List.mem_singleton, List.mem_cons, or_assoc]
  have h := hfold (paramMatches configured) [] List.nodup_nil
  rw [prepare_eq]
  exact ⟨h.1, fun param => by rw [h.2 param]; simp⟩

/-! ## The reaction -/

/-- a row with the texts of its values; null has none -/
abbrev Row := List (Text × Option String)

def extractQueryResultValue (param : Text) (queryResult : Row) : Except String String :=
  match queryResult.lookup param with
  | some (some value) => .ok value
  | some none => .error "Object reference not set to an instance of an object."
  | none => .error "Missing param"

/-- the value of a parameter of the command for updates; without the row before or after there is none -/
def extractUpdatedValue (before after : Option Row) (param : Text) : Except String String :=
  let extract (param : Text) (queryResult : Option Row) := match queryResult with
    | some queryResult => extractQueryResultValue param queryResult
    | none => .error "Object reference not set to an instance of an object."
  if "before.".toList <+: param then extract (param.drop 7) before
  else if "after.".toList <+: param then extract (param.drop 6) after
  else extract param after

structure Request where
  command : Text
  parameters : List (Text × String)

def bindParams (paramList : List Text) (extract : Text → Except String String) : Except String (List (Text × String)) :=
  paramList.mapM fun param => (extract param).map fun value => (param, value)

def service : Service Unit Request Outcome Bool Request where
  serve _ request
    | .sent => ⟨true, (), [request]⟩
    | .threw arrived => ⟨false, (), if arrived then [request] else []⟩
  restart := id

/-- `ProcessAddedQueryResults` and its siblings, for a command that was configured or not -/
def processResult (command : Option Command) (extract : Text → Except String String) : Prog Request Bool String Unit :=
  match command with
  | none => .ret ()
  | some command =>
    match bindParams command.paramList extract with
    | .error e => .stop e
    | .ok parameters =>
      .call ⟨command.text, parameters⟩ fun
        | true => .ret ()
        | false => .stop "ResponseException"

/-- the commands as they are configured -/
structure Commands where
  addedResultCommand : Option Text
  updatedResultCommand : Option Text
  deletedResultCommand : Option Text

def handleChange (commands : Commands) (evt : ChangeEvent Row) : Prog Request Bool String Unit :=
  (Prog.forEach (fun res => processResult (commands.addedResultCommand.map prepare) (extractQueryResultValue · res))
    evt.addedResults).bind fun _ =>
  (Prog.forEach (fun res => processResult (commands.updatedResultCommand.map prepare)
    (extractUpdatedValue res.before res.after)) evt.updatedResults).bind fun _ =>
  Prog.forEach (fun res => processResult (commands.deletedResultCommand.map prepare) (extractQueryResultValue · res))
    evt.deletedResults

def reaction (commands : Commands) : Event Row → Prog Request Bool String Unit :=
  processEvent (C := Unit) (fun _ => none) (fun evt _ => handleChange commands evt) fun _ _ => .ret ()

/-! ## What is submitted -/

/-- what a row asks for: the text without marks, and a value for each name -/
def requestOf (configured : Option Text) (extract : Text → Except String String) : List Request :=
  match configured with
  | none => []
  | some configured =>
    match bindParams (prepare configured).paramList extract with
    | .error _ => []
    | .ok parameters => [⟨withoutMarks configured, parameters⟩]

def owed (commands : Commands) : Event Row → List Request
  | .change evt =>
    evt.addedResults.flatMap (fun res => requestOf commands.addedResultCommand (extractQueryResultValue · res)) ++
    (evt.updatedResults.flatMap (fun res =>
      requestOf commands.updatedResultCommand (extractUpdatedValue res.before res.after)) ++
    evt.deletedResults.flatMap fun res => requestOf commands.deletedResultCommand (extractQueryResultValue · res))
  | .control _ => []
  | .other => []
  | .malformed => []

theorem processResult_inOrder (configured : Option Text) (extract : Text → Except String String) :
    InOrder service (processResult (configured.map prepare) extract) (requestOf configured extract) := by
  cases configured with
  | none => exact .ret
  | some configured =>
    rw [Option.map_some, processResult, requestOf]
    cases bindParams (prepare configured).paramList extract with
    | error e => trivial
    | ok parameters =>
      rw [← prepare_command]
      refine .send fun s o => ?_
      cases o with
      | sent => exact .inl ⟨rfl, rfl⟩
      | threw arrived => cases arrived <;> exact .inr ⟨by simp [service], _, rfl⟩

theorem gremlin_inOrder (commands : Commands) (e : Event Row) :
    InOrder service (reaction commands e) (owed commands e) := by
  cases e with
  | change evt =>
    rw [reaction, processEvent, owed]
    split_ifs with hresults
    · refine (InOrder.forEach fun res _ => processResult_inOrder _ _).bind fun _ => ?_
      exact (InOrder.forEach fun res _ => processResult_inOrder _ _).bind fun _ =>
        .forEach fun res _ => processResult_inOrder _ _
    · have hnone : evt.addedResults = [] ∧ evt.deletedResults = [] ∧ evt.updatedResults = [] := by
        simpa [hasResults, and_assoc] using hresults
      rw [hnone.1, hnone.2.1, hnone.2.2]
      exact .ret
  | control evt => exact .ret
  | other => exact .ret
  | malformed => trivial

/-- the values bound are those of the names, in their order -/
theorem bindParams_ok {paramList : List Text} {extract : Text → Except String String} {parameters : List (Text × String)}
    (h : bindParams paramList extract = .ok parameters) :
    parameters.map Prod.fst = paramList ∧ ∀ parameter ∈ parameters, extract parameter.1 = .ok parameter.2 := by
  induction paramList generalizing parameters with
  | nil =>
    have hnil : [] = parameters := Except.ok.inj h
    rw [← hnil]
    exact ⟨rfl, fun _ hmem => by cases hmem⟩
  | cons param paramList ih =>
    rw [bindParams, List.mapM_cons] at h
    cases hextract : extract param with
    | error e =>
      rw [hextract] at h
      cases h
    | ok value =>
      cases hrest : bindParams paramList extract with
      | error e =>
        rw [← bindParams, hextract, hrest] at h
        cases h
      | ok rest =>
        rw [← bindParams, hextract, hrest] at h
        have hcons : (param, value) :: rest = parameters := Except.ok.inj h
        obtain ⟨hnames, hvalues⟩ := ih hrest
        rw [← hcons, List.map_cons, hnames]
        exact ⟨rfl, List.forall_mem_cons.2 ⟨hextract, hvalues⟩⟩

/-- a request for a configured text: its text without marks, and each name after a mark bound once, to its value -/
def Binds (configured : Text) (extract : Text → Except String String) (request : Request) : Prop :=
  request.command = withoutMarks configured ∧ (request.parameters.map Prod.fst).Nodup ∧
    (∀ param, param ∈ request.parameters.map Prod.fst ↔ param ∈ paramMatches configured) ∧
    ∀ parameter ∈ request.parameters, extract parameter.1 = .ok parameter.2

theorem requestOf_binds {configured : Text} {extract : Text → Except String String} {request : Request}
    (h : request ∈ requestOf (some configured) extract) : Binds configured extract request := by
  rw [requestOf] at h
  cases hbind : bindParams (prepare configured).paramList extract with
  | error e =>
    rw [hbind] at h
    cases h
  | ok parameters =>
    rw [hbind] at h
    obtain ⟨hnames, hvalues⟩ := bindParams_ok hbind
    rw [List.mem_singleton.1 h, Binds, hnames]
    exact ⟨rfl, (prepare_params configured).1, (prepare_params configured).2, hvalues⟩

/-- **What an acknowledged event has submitted**: for each row what it asks for, and that binds every name once. -/
theorem gremlin_submits (commands : Commands) (events : ℕ → Event Row) (ops : List (Op Outcome)) :
    (run (step service fun i => reaction commands (events i)) (.new ()) ops).LosesNothing
      (fun i => owed commands (events i)) ∧
    ∀ configured extract, ∀ request ∈ requestOf (some configured) extract, Binds configured extract request :=
  ⟨acknowledged_inOrder (fun i => gremlin_inOrder commands (events i)) () ops, fun _ _ _ h => requestOf_binds h⟩

end DrasiPlatform.Gremlin
