/-
  Wiretap.Policy.Basic
  ────────────────────
  **WHICH HEADERS MAY BE RECORDED.**

  A policy names headers in two sets.  The include set, once it has an entry, is an
  allow-list: what it does not name is deleted.  The exclude set changes the treatment of
  single headers.  Four headers have a fixed treatment under every policy.

    • `Policy.resolve` — the rule for one header,
    • `Policy.merge`   — one policy layered over another, by set operations,
    • `Policy.filter`  — the fields of a message as they may be recorded.
-/
import Std.Data.ExtTreeMap
import Wiretap.Http.Headers
import Wiretap.Text.Blank
import Wiretap.Text.Utf8

namespace Wiretap

/-! ## §1. Rules. -/

/-- How a header is treated. -/
inductive Rule
  /-- Recorded with its value. -/
  | keep
  /-- Recorded with a placeholder for its value. -/
  | redact
  /-- Not recorded. -/
  | delete
  deriving DecidableEq, Repr

/-- The written form of a rule. -/
def Rule.name : Rule → String
  | .keep => "keep"
  | .redact => "redact"
  | .delete => "delete"

/-- The rule with a written form. -/
def Rule.ofName? : String → Option Rule
  | "keep" => some .keep
  | "redact" => some .redact
  | "delete" => some .delete
  | _ => none

/-- How much a rule protects: the more, the less is recorded. -/
def Rule.protection : Rule → Nat
  | .keep => 0
  | .redact => 1
  | .delete => 2

theorem Rule.protection_le_delete (rule : Rule) : rule.protection ≤ Rule.delete.protection := by
  cases rule <;> decide

theorem Rule.delete_protection_le {rule : Rule} :
    Rule.delete.protection ≤ rule.protection ↔ rule = .delete := by
  cases rule <;> decide

/-! ## §2. Policies. -/

/-- Rules by header name, the name trimmed and in ASCII lower case. -/
abbrev RuleSet := Std.ExtTreeMap String Rule compare

/-- The name under which a listed header is found. -/
def normalName (name : String) : String := Text.asciiLower (Text.trim name)

/-- The rules of a list; of two for one name the later counts. -/
def RuleSet.ofEntries (entries : List (String × Rule)) : RuleSet :=
  Std.ExtTreeMap.ofList (entries.map fun e => (normalName e.1, e.2)) compare

/-- A header policy. -/
structure Policy where
  includes : RuleSet
  excludes : RuleSet
  deriving DecidableEq, Inhabited

/-- Why two lists make no policy. -/
inductive PolicyError
  /-- Both lists have entries. -/
  | ambiguous
  deriving DecidableEq, Repr

/-- The wording of a fault. -/
def PolicyError.message : PolicyError → String
  | .ambiguous => "header policy defines both include and exclude rules"

namespace Policy

/-- The policy that names no header. -/
def empty : Policy := ⟨∅, ∅⟩

/-- The policy of two lists, whatever they hold. -/
def ofEntries (includes excludes : List (String × Rule)) : Policy :=
  ⟨.ofEntries includes, .ofEntries excludes⟩

/-- The policy of two lists of which at most one has entries. -/
def tryOfEntries (includes excludes : List (String × Rule)) : Except PolicyError Policy :=
  let policy := ofEntries includes excludes
  if !policy.includes.isEmpty && !policy.excludes.isEmpty then .error .ambiguous else .ok policy

/-- `outer` layered over `base`: for a header that `outer` names, only `outer` counts, and
its exclude set before its include set. -/
def merge (base outer : Policy) : Policy :=
  ⟨(base.includes ∪ outer.includes) \ outer.excludes,
    (base.excludes \ outer.includes) ∪ outer.excludes⟩

/-! ## §3. The rule for a header. -/

/-- The headers that are recorded with their value under every policy. -/
def alwaysKept : List String := ["content-type", "content-length", "content-encoding"]

/-- The rule for a name in lower case. -/
def resolveLower (p : Policy) (name : String) : Rule :=
  if name = "authorization" then .redact
  else if alwaysKept.contains name then .keep
  else
    match p.includes[name]? with
    | some rule => rule
    | none => if p.includes.isEmpty then p.excludes[name]?.getD .keep else .delete

/-- The rule for a header. -/
def resolve (p : Policy) (name : String) : Rule := p.resolveLower (Text.asciiLower name)

end Policy

/-! ## §4. Recorded headers. -/

/-- Fields as they are recorded: names and values as text. -/
abbrev RecordedHeaders := List (String × String)

/-- What stands for a redacted value. -/
def redactedValue : String := "[REDACTED]"

namespace Policy

/-- One field as it may be recorded. -/
def filterField (p : Policy) (field : String × Bytes) : Option (String × String) :=
  match p.resolve field.1 with
  | .keep => some (field.1, Utf8.decodeLossy field.2)
  | .redact => some (field.1, redactedValue)
  | .delete => none

/-- The fields of a message as they may be recorded, in order. -/
def filter (p : Policy) (headers : Http.Headers) : RecordedHeaders :=
  headers.fields.filterMap p.filterField

end Policy

/-- The first recorded value under a name, in whatever case the name is given. -/
def RecordedHeaders.value? (headers : RecordedHeaders) (name : String) : Option String :=
  (headers.find? fun h => Text.sameIgnoringAsciiCase h.1 name).map (·.2)

end Wiretap
