import PolicyPages.Log.Event
import PolicyPages.Text.Affix
import PolicyPages.Text.Blank

/-!
# Filters of log events

A filter is a list of directives, written with commas between them. A directive gives the level from
which on events pass: by itself (`info`), or for the events whose target begins with a text
(`policydoc=debug`), or for those that have a field (`[{rule}]=trace`). A target or field without a
level lets everything pass. The directive that says most about an event decides on it, and an event on
which none says anything is dropped.

A directive for what happens in a named span (`[name]`) decides on no event, since events here are in
none.
-/

namespace PolicyPages.Log

/-- From which level on events pass; `none` if none pass. -/
abbrev Threshold := Option Level

namespace Threshold

/-- The thresholds by their numbers. -/
def numbered : List Threshold :=
  [none, some .error, some .warn, some .info, some .debug, some .trace]

/-- The number that is written in digits, possibly after a plus sign. -/
def number? (text : List Char) : Option Nat :=
  let digits := (Text.dropStart? ['+'] text).getD text
  if digits ≠ [] && digits.all Char.isDigit then
    some (digits.foldl (fun n c => 10 * n + (c.toNat - '0'.toNat)) 0)
  else none

/-- The threshold of a text: the name of a level, `off`, or a number from zero for nothing to five
for everything. -/
def ofText? (text : List Char) : Option Threshold :=
  match number? text with
  | some n => numbered[n]?
  | none =>
    if Level.lowercase (String.ofList text) == "off" then some none
    else (Level.ofName? (String.ofList text)).map some

/-- The threshold after an equals sign. Nothing there lets everything pass. -/
def afterEquals? (text : List Char) : Option Threshold :=
  if text = [] then some (some .trace) else ofText? text

/-- Whether an event of a level passes. -/
def passes (threshold : Threshold) (level : Level) : Bool :=
  match threshold with
  | some least => least.rank ≤ level.rank
  | none => false

end Threshold

/-- A part of a filter: the beginning of the targets and the field of the events that it decides on,
and its threshold. -/
structure Directive where
  target : Option (List Char)
  field : Option String
  threshold : Threshold
deriving DecidableEq, Repr

namespace Directive

/-- The directive that decides if none is given: errors pass. -/
def errorsOnly : Directive := ⟨none, none, some .error⟩

/-- What was read: a directive for events, or one for spans. -/
inductive Reading where
  | events (directive : Directive)
  | spans

/-- Whether a target may begin with a character. -/
def beginsTarget (c : Char) : Bool :=
  c == '-' || c == ':' || c == '_' || c.isAlphanum || 0x80 ≤ c.toNat

/-- Reads what follows a closing bracket. -/
def afterBracket? : List Char → Option Threshold
  | [] => some (some .trace)
  | '=' :: level => Threshold.afterEquals? level
  | _ => none

/-- Reads a directive from its opening bracket on. -/
def inBrackets? (target : Option (List Char)) (text : List Char) : Option Reading :=
  let span := text.takeWhile fun c => c ≠ ']' && c ≠ '\x7b'
  match text.drop span.length with
  | ']' :: rest => (afterBracket? rest).map fun _ => .spans
  | '\x7b' :: rest =>
    let field := rest.takeWhile (· ≠ '\x7d')
    match rest.drop field.length with
    | '\x7d' :: ']' :: rest =>
      if field = [] then none
      else
        (afterBracket? rest).map fun threshold =>
          if span ≠ [] || field.contains '=' then .spans
          else .events ⟨target, some (String.ofList field), threshold⟩
    | _ => none
  | _ => none

/-- Reads a directive. Blanks at its ends are part of a name, and no level has one. -/
def read? (text : List Char) : Option Reading :=
  let trimmed := Text.trim text
  match trimmed with
  | [] => none
  | '[' :: rest => inBrackets? none rest
  | first :: _ =>
    if !beginsTarget first then none
    else
      let word := trimmed.takeWhile fun c => c ≠ '=' && c ≠ '['
      match trimmed.drop word.length with
      | '=' :: _ =>
        if text.head? ≠ some first then none
        else
          (Threshold.afterEquals? (text.drop (word.length + 1))).map fun threshold =>
            .events ⟨some word, none, threshold⟩
      | '[' :: rest => inBrackets? (some word) rest
      | _ =>
        match Threshold.ofText? text with
        | some threshold => some (.events ⟨none, none, threshold⟩)
        | none => some (.events ⟨some text, none, some .trace⟩)

/-- Whether a directive decides on an event. -/
def concerns (directive : Directive) (event : Event) : Bool :=
  (match directive.target with
    | some target => target.isPrefixOf event.target.toList
    | none => true)
  && (match directive.field with
    | some field => field == "message" || event.fields.any (·.name == field)
    | none => true)

/-- How much a directive says about the events that it decides on. -/
def detail (directive : Directive) : Nat × Nat :=
  ((directive.target.map fun target => target.length + 1).getD 0,
    if directive.field.isSome then 1 else 0)

/-- Whether a directive takes the place of one before it. -/
def overrules (later earlier : Directive) : Bool :=
  let more := later.detail
  let less := earlier.detail
  less.1 < more.1 || (less.1 == more.1 &&
    (less.2 < more.2 || (less.2 == more.2 && earlier.field.getD "" ≤ later.field.getD "")))

end Directive

/-- A filter. -/
abbrev Filter := List Directive

namespace Filter

/-- The filter of a text. Nothing between commas does not count. -/
def ofText? (text : String) : Option Filter := do
  let readings ← ((text.toList.splitOn ',').filter (· ≠ [])).mapM Directive.read?
  if readings.isEmpty then some [.errorsOnly]
  else
    some (readings.filterMap fun reading =>
      match reading with
      | .events directive => some directive
      | .spans => none)

/-- The directive that decides on an event. -/
def deciding? (filter : Filter) (event : Event) : Option Directive :=
  (filter.filter (·.concerns event)).foldl
    (fun best directive =>
      match best with
      | some earlier => if directive.overrules earlier then some directive else some earlier
      | none => some directive)
    none

/-- Whether an event passes a filter. -/
def passes (filter : Filter) (event : Event) : Bool :=
  match filter.deciding? event with
  | some directive => directive.threshold.passes event.level
  | none => false

end Filter

end PolicyPages.Log
