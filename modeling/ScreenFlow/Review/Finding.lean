import ScreenFlow.Codec.Fields

/-!
# Findings and reports

A finding is one result of a review, an error or a warning. A report files findings by severity; a
report on a part is merged into the report on the whole with the part's place put before its
messages.
-/

namespace ScreenFlow.Review

open ScreenFlow.Codec ScreenFlow.Json

/-- How grave a finding is. -/
inductive Severity where
  | error
  | warning
  deriving DecidableEq, Repr

def Severity.name : Severity → String
  | .error => "error"
  | .warning => "warning"

def Severity.codec : Codec Severity := .choice [.error, .warning] Severity.name

/-- The kind of rule that a finding comes from. -/
inductive FindingCode where
  /-- A count or length is above its limit. -/
  | limitExceeded
  /-- A count or length is close to its limit. -/
  | approachingLimit
  /-- Something that is required is missing. -/
  | missingRequiredField
  /-- An id is used twice, or a navigation target is no screen. -/
  | invalidReference
  deriving DecidableEq, Repr

def FindingCode.name : FindingCode → String
  | .limitExceeded => "LimitExceeded"
  | .approachingLimit => "ApproachingLimit"
  | .missingRequiredField => "MissingRequiredField"
  | .invalidReference => "InvalidReference"

def FindingCode.codec : Codec FindingCode :=
  .choice [.limitExceeded, .approachingLimit, .missingRequiredField, .invalidReference]
    FindingCode.name

/-- One result of a review. -/
structure Finding where
  kind : Severity
  code : FindingCode
  message : String
  /-- The attribute that the finding is about. -/
  field : Option String
  limit : Option Nat
  /-- What was measured against the limit. -/
  current : Option Nat
  deriving DecidableEq, Repr

namespace Finding

def fields : Fields Tree Finding Finding :=
  Finding.mk
    <$> .required "kind" Severity.codec Finding.kind
    <*> .required "code" FindingCode.codec Finding.code
    <*> .required "message" .text Finding.message
    <*> .optional "field" .text Finding.field
    <*> .optional "limit" .size Finding.limit
    <*> .optional "current" .size Finding.current

def codec : Codec Finding := fields.codec "ValidationFinding"

/-- A finding about nothing in particular. -/
def plain (kind : Severity) (code : FindingCode) (message : String) : Finding :=
  ⟨kind, code, message, none, none, none⟩

/-- The same finding about an attribute. -/
def onField (f : Finding) (field : String) : Finding := { f with field := some field }

/-- The same finding with a limit and what was measured. -/
def measured (f : Finding) (limit current : Nat) : Finding :=
  { f with limit := some limit, current := some current }

/-- The same finding with a place before its message. -/
def inContext (context : String) (f : Finding) : Finding :=
  { f with message := context ++ f.message }

/-- Something required is missing. -/
def missing (field message : String) : Finding :=
  (plain .error .missingRequiredField message).onField field

/-- A limit is exceeded. -/
def exceeded (field message : String) (limit current : Nat) : Finding :=
  ((plain .error .limitExceeded message).onField field).measured limit current

/-- A limit is close. -/
def approaching (field message : String) (limit current : Nat) : Finding :=
  ((plain .warning .approachingLimit message).onField field).measured limit current

/-- A reference leads nowhere or is not unique. -/
def invalidReference (field message : String) : Finding :=
  (plain .error .invalidReference message).onField field

def isError (f : Finding) : Bool := f.kind = .error

/-- A finding on one line. -/
def display (f : Finding) : String := f.kind.name ++ ": " ++ f.message

end Finding

/-- The findings of a review, by severity. -/
structure Report where
  errors : List Finding
  warnings : List Finding
  deriving DecidableEq, Repr

namespace Report

def fields : Fields Tree Report Report :=
  Report.mk
    <$> .required "errors" (.list Finding.codec) Report.errors
    <*> .required "warnings" (.list Finding.codec) Report.warnings

def codec : Codec Report := fields.codec "ValidationReport"

/-- No findings. -/
def empty : Report := ⟨[], []⟩

/-- Files a finding by its severity. -/
def push (r : Report) (f : Finding) : Report :=
  match f.kind with
  | .error => { r with errors := r.errors ++ [f] }
  | .warning => { r with warnings := r.warnings ++ [f] }

/-- Files findings one after the other. -/
def pushAll (r : Report) (fs : List Finding) : Report := fs.foldl push r

/-- The report of a list of findings. -/
def ofFindings (fs : List Finding) : Report := empty.pushAll fs

/-- All findings, errors first. -/
def findings (r : Report) : List Finding := r.errors ++ r.warnings

/-- Takes in the findings of a part, with its place before each message. -/
def merge (r part : Report) (context : String) : Report :=
  r.pushAll (part.findings.map (Finding.inContext context))

/-- Whether there are no errors. -/
def isValid (r : Report) : Bool := r.errors.isEmpty

/-- Whether there are no findings. -/
def isEmpty (r : Report) : Bool := r.errors.isEmpty && r.warnings.isEmpty

end Report

end ScreenFlow.Review
