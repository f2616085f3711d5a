import PolicyPages.Yaml.Scalar.Gap

/-!
# Quoted scalars

Between single quotes a quote is written twice, and nothing else is special. Between double quotes a
backslash begins an escape; before a line end it joins the lines. In both, lines are folded, and a
mark between documents is refused.
-/

namespace PolicyPages.Yaml

/-- The character of an escape with one letter. -/
def escapedChar? : Char → Option Char
  | '0' => some '\x00'
  | 'a' => some '\x07'
  | 'b' => some '\x08'
  | 't' | '\t' => some '\t'
  | 'n' => some '\n'
  | 'v' => some '\x0b'
  | 'f' => some '\x0c'
  | 'r' => some '\r'
  | 'e' => some '\x1b'
  | ' ' => some ' '
  | '"' => some '"'
  | '/' => some '/'
  | '\\' => some '\\'
  | 'N' => some '\u0085'
  | '_' => some '\u00a0'
  | 'L' => some '\u2028'
  | 'P' => some '\u2029'
  | _ => none

/-- How many hexadecimal digits follow the letter of an escape. -/
def escapeLength? : Char → Option Nat
  | 'x' => some 2
  | 'u' => some 4
  | 'U' => some 8
  | _ => none

/-- The value of a hexadecimal digit. -/
def hexValue? (c : Char) : Option Nat :=
  if '0' ≤ c && c ≤ '9' then some (c.toNat - '0'.toNat)
  else if 'a' ≤ c && c ≤ 'f' then some (c.toNat - 'a'.toNat + 10)
  else if 'A' ≤ c && c ≤ 'F' then some (c.toNat - 'A'.toNat + 10)
  else none

/-- The character with a code, unless it is no character. -/
def charOfCode? (n : Nat) : Option Char :=
  if h : n.isValidChar then some (Char.ofNatAux n h) else none

/-- What the reader of a quoted scalar is in the middle of: nothing, or an escape of which some
digits are missing. -/
inductive Escape where
  | outside
  | backslash
  | digits (missing code : Nat)
  /-- The first of two quotes has been read. -/
  | quote

/-- Reads a quoted scalar on from reversed text and a gap after it. The result is its text and what
follows the closing quote. -/
def quotedFrom (single : Bool) (reversed : List Char) (gap : Gap) (escape : Escape) :
    List Cell → Option (List Char × List Cell)
  | [] => none
  | cell :: rest =>
    let c := cell.char
    match escape with
    | .quote => quotedFrom single ('\'' :: reversed) .none .outside rest
    | .digits missing code =>
      match hexValue? c with
      | none => none
      | some d =>
        if missing ≤ 1 then
          match charOfCode? (code * 16 + d) with
          | none => none
          | some c => quotedFrom single (c :: reversed) .none .outside rest
        else quotedFrom single reversed gap (.digits (missing - 1) (code * 16 + d)) rest
    | .backslash =>
      if isBreak c then quotedFrom single reversed .escaped .outside rest
      else
        match escapedChar? c, escapeLength? c with
        | some c, _ => quotedFrom single (c :: reversed) .none .outside rest
        | none, some n => quotedFrom single reversed gap (.digits n 0) rest
        | none, none => none
    | .outside =>
      if Cell.isDocumentMark (cell :: rest) || c == endMark then none
      else if isBlank c || isBreak c then quotedFrom single reversed (gap.push c) .outside rest
      else
        let reversed := gap.fill reversed
        if single then
          if c == '\'' then
            if Cell.charAt 0 rest == '\'' then quotedFrom single reversed .none .quote rest
            else some (reversed.reverse, rest)
          else quotedFrom single (c :: reversed) .none .outside rest
        else if c == '"' then some (reversed.reverse, rest)
        else if c == '\\' then quotedFrom single reversed .none .backslash rest
        else quotedFrom single (c :: reversed) .none .outside rest

/-- Reads a quoted scalar after its opening quote. -/
def quotedScalar? (single : Bool) (cells : List Cell) : Option (List Char × List Cell) :=
  quotedFrom single [] .none .outside cells

end PolicyPages.Yaml
