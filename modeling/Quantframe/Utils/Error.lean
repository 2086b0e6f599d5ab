import Quantframe.Utils.Logger
import Quantframe.Utils.Masking

/-!
# Error values

How an error is shown, logged and made from a file that does not parse.
-/

namespace Quantframe.Utils

open Lib
open LogParser (Text)

structure Error where
  component : Text
  message : Text
  cause : Text
  logLevel : LogLevel
  properties : Option Json
  location : Option Text

def maxLocationLength : Nat := 1024
def maxContextLength : Nat := 1048

/-- `Display`. -/
def Error.fmt (e : Error) : Except Panic Text := do
  let (message, _) ← truncateWithIndicator e.message 1000 none
  match e.location with
  | some location =>
    let (location, _) ← truncateWithIndicator location 200 none
    return e.component ++ ": ".toList ++ message ++ " | Cause: ".toList ++ e.cause ++ " | Location: ".toList ++
      location
  | none => return e.component ++ ": ".toList ++ message ++ " | Cause: ".toList ++ e.cause

/-- The message with the cause and the location. -/
def Error.logMessage (e : Error) : Except Panic Text :=
  let message := if e.cause.isEmpty then e.message else e.message ++ " | Cause: ".toList ++ e.cause
  match e.location with
  | some location =>
    if maxLocationLength < byteLen location then do
      let front ← strTo location (maxLocationLength - 50)
      return message ++ " | Location: ".toList ++ front ++ "... [LOCATION TRUNCATED - ".toList ++
        showNat (byteLen location) ++ " total chars]".toList
    else return message ++ " | Location: ".toList ++ location
  | none => return message

/-- `Value::to_string` is `jsonText`. -/
def Error.logWithOptions (e : Error) (jsonText : Json → Text) (logging : Logging) (file : Text)
    (options : LoggerOptions) (logs : Logs) : Except Panic (Error × Logs) := do
  let options := if !file.isEmpty && options.file.isNone then { options with file := some file } else options
  let log (message : Text) (options : LoggerOptions) (logs : Logs) :=
    dolog logging e.logLevel e.component message options logs
  let message ← e.logMessage
  match e.properties with
  | some context =>
    let contextStr := jsonText context
    if maxContextLength < byteLen contextStr then
      let front ← strTo contextStr (maxContextLength - 50)
      let truncatedContext := front ++ "... [TRUNCATED - ".toList ++ showNat (byteLen contextStr) ++
        " total chars]".toList
      let logs ←
        (if options.console then
          log (message ++ " | Context: ".toList ++ truncatedContext) { options with console := true, file := none } logs
        else .ok logs)
      let logs ←
        (if options.file.isSome then
          log (message ++ " | Context: ".toList ++ contextStr) { options with console := false } logs
        else .ok logs)
      return (e, logs)
    else
      let logs ← log (message ++ " | Context: ".toList ++ contextStr) options logs
      return (e, logs)
  | none =>
    let logs ← log message options logs
    return (e, logs)

inductive Category where
  | io
  | syntactic
  | data
  | eof
  deriving DecidableEq, Repr

/-- `serde_json::Error`. -/
structure JsonError where
  line : Nat
  column : Nat
  category : Category
  /-- Its `Display`. -/
  text : Text

def Category.errorType : Category → Text
  | .io => "IO".toList
  | .syntactic => "Syntax".toList
  | .data => "Data".toList
  | .eof => "EOF".toList

def marker : Text := " <<< ERROR HERE <<< ".toList

/-- `path` is what `Path::to_str` gives. -/
def Error.fromJson (component : Text) (path : Option Text) (content message : Text) (err : JsonError)
    (location : Text) : Except Panic Error := do
  let positionInfo := " at line ".toList ++ showNat err.line ++ ", column ".toList ++ showNat err.column
  let contentStr ← insertAt content err.line err.column marker
  let (contentStr, _) ← truncateWithIndicator contentStr 1000 none
  return {
    component := "ParseError:".toList ++ component
    message := message
    cause := err.text ++ positionInfo
    logLevel := .critical
    properties := some (.object [
      ("column".toList, .number (showNat err.column)),
      ("content".toList, .string contentStr),
      ("error_type".toList, .string err.category.errorType),
      ("line".toList, .number (showNat err.line)),
      ("path".toList, (path.map Json.string).getD .null),
      ("truncated".toList, .bool (byteLen contentStr = 1000))])
    location := some location }

def Error.fromIo (component path message err location : Text) : Error where
  component := "IOError:".toList ++ component
  message := "An I/O error occurred while ".toList ++ message ++ ": ".toList ++ err
  cause := err
  logLevel := .critical
  properties := some (.object [("path".toList, .string path)])
  location := some location

/-- The file system and `serde_json`, as masking a file uses them. -/
structure FileAccess where
  readToString : Text → Except Text Text
  write : Text → Text → Except Text Unit
  fromStr : Text → Except JsonError Json
  toStringPretty : Json → Except JsonError Text

def masking : Text := "FileMasking".toList
def maskingLocation : Text := "Error::mask_sensitive_data_in_file".toList

/-- The second half of `mask_sensitive_data_in_file`: back to text, and to the file when it is to be saved. -/
def Error.writeMasked (access : FileAccess) (path : Text) (jsonValue : Json) (saveMasked : Bool) :
    Except Panic (Except Error Text) :=
  match access.toStringPretty jsonValue with
  | .error e => do
    let error ← fromJson masking (some path) "masked_json".toList "Failed to serialize masked JSON".toList e
      maskingLocation
    return .error error
  | .ok maskedContent =>
    if saveMasked then
      match access.write path maskedContent with
      | .error e => return .error (fromIo masking path "writing masked content to file".toList e maskingLocation)
      | .ok () => return .ok maskedContent
    else return .ok maskedContent

/-- The masked content, or the error that the caller gets. -/
def Error.maskSensitiveDataInFile (access : FileAccess) (path : Text) (properties : List Text) (saveMasked : Bool) :
    Except Panic (Except Error Text) :=
  match access.readToString path with
  | .error e => return .error (fromIo masking path "reading file for masking".toList e maskingLocation)
  | .ok content =>
    match access.fromStr content with
    | .error e => do
      let error ← fromJson masking (some path) content "Failed to parse JSON for masking".toList e maskingLocation
      return .error error
    | .ok (.object obj) => writeMasked access path (.object (maskSensitiveData properties obj)) saveMasked
    | .ok jsonValue => writeMasked access path jsonValue saveMasked

/-! ### When the calls come back -/

section Returns

variable {content front : Text} {line column : Nat}

theorem returns_fmt (e : Error) : Returns e.fmt ↔
    MayCut 1000 950 e.message ∧ ∀ location, e.location = some location → MayCut 200 150 location := by
  rw [Error.fmt]
  cases hlocation : e.location with
  | none =>
      rw [returns_bind_of fun _ => returns_pure _, returns_truncateWithIndicator]
      exact ⟨fun h => ⟨h, fun location hnone => by cases hnone⟩, And.left⟩
  | some location =>
      rw [returns_bind_iff fun _ => (returns_bind_of fun _ => returns_pure _).trans returns_truncateWithIndicator,
        returns_truncateWithIndicator]
      constructor
      · rintro ⟨hmessage, hcut⟩
        refine ⟨hmessage, fun location' hlocation' => ?_⟩
        cases hlocation'
        exact hcut
      · rintro ⟨hmessage, hcut⟩
        exact ⟨hmessage, hcut location rfl⟩

theorem returns_logMessage (e : Error) :
    Returns e.logMessage ↔ ∀ location, e.location = some location → MayCut 1024 974 location := by
  rw [Error.logMessage]
  cases hlocation : e.location with
  | none =>
      constructor
      · intro _ location hnone
        cases hnone
      · intro _
        exact returns_pure _
  | some location =>
      have hcut : (∀ location', some location = some location' → MayCut 1024 974 location') ↔
          MayCut 1024 974 location := by
        constructor
        · intro h
          exact h location rfl
        · intro h location' hlocation'
          cases hlocation'
          exact h
      rw [hcut]
      simp only []
      split
      · next hlong =>
          rw [returns_bind_of fun _ => returns_pure _, returns_strTo]
          constructor
          · intro h _
            exact h
          · intro h
            exact h hlong
      · next hshort =>
          exact ⟨fun _ hlong => absurd hlong hshort, fun _ => returns_pure _⟩

theorem returns_logWithOptions (e : Error) (jsonText : Json → Text) (logging : Logging) (file : Text)
    (options : LoggerOptions) (logs : Logs) :
    Returns (e.logWithOptions jsonText logging file options logs) ↔
      (∀ location, e.location = some location → MayCut 1024 974 location) ∧
        ∀ context, e.properties = some context → MayCut 1048 998 (jsonText context) := by
  rw [Error.logWithOptions, ← returns_logMessage]
  cases hproperties : e.properties with
  | none =>
      rw [returns_bind_of fun _ => (returns_bind_of fun _ => returns_pure _).mpr (returns_dolog _ _ _ _ _ _)]
      exact ⟨fun h => ⟨h, fun context hnone => by cases hnone⟩, And.left⟩
  | some context =>
      have hwritten (c : Prop) [Decidable c] (logs : Logs) (r : Except Panic Logs) (hr : Returns r) :
          Returns (if c then r else .ok logs) := by
        split
        · exact hr
        · exact returns_ok logs
      refine (returns_bind_iff (p := MayCut 1048 998 (jsonText context)) fun message => ?_).trans ?_
      · simp only []
        split
        · next hlong =>
            refine (returns_bind_of fun front => ?_).trans (returns_strTo.trans ?_)
            · refine (returns_bind_of fun logs => ?_).mpr (hwritten _ logs _ (returns_dolog _ _ _ _ _ _))
              refine (returns_bind_of fun logs => returns_pure _).mpr (hwritten _ logs _ (returns_dolog _ _ _ _ _ _))
            · constructor
              · intro h _
                exact h
              · intro h
                exact h hlong
        · next hshort =>
            constructor
            · intro _ hlong
              exact absurd hlong hshort
            · intro _
              exact (returns_bind_of fun logs => returns_pure _).mpr (returns_dolog _ _ _ _ _ _)
      · constructor
        · rintro ⟨hmessage, hcut⟩
          refine ⟨hmessage, fun context' hcontext => ?_⟩
          cases hcontext
          exact hcut
        · rintro ⟨hmessage, hcut⟩
          exact ⟨hmessage, hcut context rfl⟩

/-- Where the content of a file that does not parse is cut: its lines with the marker at a line and a column. -/
def CutsBesideMarker (content : Text) (line column : Nat) : Prop :=
  match textBefore content line column with
  | none => MayCut 1000 950 (unixLines content)
  | some front =>
    (950 ≤ byteLen front → MayCut 980 950 (unixLines content)) ∧
      (byteLen front ≤ 930 → MayCut 980 930 (unixLines content))

theorem marker_ascii : ∀ c ∈ marker, c.utf8Size = 1 := by
  have hall : (marker.all fun c => decide (c.utf8Size = 1)) = true := by decide
  intro c hc
  exact of_decide_eq_true (List.all_eq_true.mp hall c hc)

theorem byteLen_marker : byteLen marker = 20 := by decide

theorem returns_fromJson (component : Text) (path : Option Text) (content message : Text) (err : JsonError)
    (location : Text) : Returns (Error.fromJson component path content message err location) ↔
      CutsBesideMarker content err.line err.column := by
  rw [Error.fromJson, CutsBesideMarker]
  cases hbefore : textBefore content err.line err.column with
  | none =>
      rw [insertAt_of_none hbefore]
      exact (returns_bind_of fun _ => returns_pure _).trans returns_truncateWithIndicator
  | some front =>
      obtain ⟨back, hlines, hinsert⟩ := insertAt_of_some hbefore
      rw [hinsert, hlines]
      refine ((returns_bind_of fun _ => returns_pure _).trans returns_truncateWithIndicator).trans ?_
      have hlonger : 1000 < byteLen (front ++ (marker ++ back)) ↔ 980 < byteLen (front ++ back) := by
        rw [byteLen_append, byteLen_append, byteLen_append, byteLen_marker]
        omega
      rw [MayCut, MayCut, MayCut, hlonger, boundary_insert marker_ascii, byteLen_marker]
      change (_ → (950 ≤ byteLen front → Boundary _ 950) ∧ (byteLen front + 20 ≤ 950 → Boundary _ 930)) ↔ _
      constructor
      · intro h
        exact ⟨fun hafter hlong => (h hlong).1 hafter, fun hbefore hlong => (h hlong).2 (by omega)⟩
      · intro h hlong
        exact ⟨fun hafter => h.1 hafter hlong, fun hbefore => h.2 (by omega) hlong⟩

theorem cutsBesideMarker_of_short {content : Text} (h : byteLen (unixLines content) ≤ 980) (line column : Nat) :
    CutsBesideMarker content line column := by
  rw [CutsBesideMarker]
  split
  · intro hlong
    omega
  · exact ⟨fun _ hlong => absurd hlong (by omega), fun _ hlong => absurd hlong (by omega)⟩

theorem returns_writeMasked (access : FileAccess) (path : Text) (jsonValue : Json) (saveMasked : Bool) :
    Returns (Error.writeMasked access path jsonValue saveMasked) := by
  rw [Error.writeMasked]
  split
  · next e _ =>
      have hshort : byteLen (unixLines "masked_json".toList) ≤ 980 := by decide
      exact (returns_bind_of fun _ => returns_pure _).mpr
        ((returns_fromJson _ _ _ _ e _).mpr (cutsBesideMarker_of_short hshort _ _))
  · split
    · split
      · exact returns_pure _
      · exact returns_pure _
    · exact returns_pure _

/-- Masking a file panics only when it reports that the file does not parse. -/
theorem returns_maskSensitiveDataInFile (access : FileAccess) (path : Text) (properties : List Text)
    (saveMasked : Bool) : Returns (Error.maskSensitiveDataInFile access path properties saveMasked) ↔
      ∀ content err, access.readToString path = .ok content → access.fromStr content = .error err →
        CutsBesideMarker content err.line err.column := by
  rw [Error.maskSensitiveDataInFile]
  split
  · next e hread =>
      constructor
      · intro _ content err hcontent
        rw [hread] at hcontent
        cases hcontent
      · intro _
        exact returns_pure _
  · next content hread =>
      have hparsed (jsonValue : Json) (hparse : access.fromStr content = .ok jsonValue) (content' : Text)
          (err : JsonError) (hcontent : access.readToString path = .ok content') :
          access.fromStr content' ≠ .error err := by
        rw [hread] at hcontent
        cases hcontent
        intro herr
        rw [hparse] at herr
        cases herr
      split
      · next err hparse =>
          refine ((returns_bind_of fun _ => returns_pure _).trans (returns_fromJson _ _ _ _ _ _)).trans ?_
          constructor
          · intro h content' err' hcontent herr
            rw [hread] at hcontent
            cases hcontent
            rw [hparse] at herr
            cases herr
            exact h
          · intro h
            exact h content err hread hparse
      · next obj hparse =>
          constructor
          · intro _ content' err hcontent herr
            exact absurd herr (hparsed _ hparse content' err hcontent)
          · intro _
            exact returns_writeMasked _ _ _ _
      · next jsonValue hother hparse =>
          constructor
          · intro _ content' err hcontent herr
            exact absurd herr (hparsed _ hparse content' err hcontent)
          · intro _
            exact returns_writeMasked _ _ _ _

/-- Error formatting comes back when every text longer than its limit may be cut where it is cut. -/
theorem formatting_returns_iff (e : Error) (jsonText : Json → Text) (logging : Logging) (file : Text)
    (options : LoggerOptions) (logs : Logs) (text : Text) (consoleMax : Nat) (fileMax : Option Nat) (label : Text)
    (component : Text) (path : Option Text) (content message : Text) (err : JsonError) (location : Text) :
    (Returns e.fmt ↔
      MayCut 1000 950 e.message ∧ ∀ location, e.location = some location → MayCut 200 150 location) ∧
    (Returns (e.logWithOptions jsonText logging file options logs) ↔
      (∀ location, e.location = some location → MayCut 1024 974 location) ∧
        ∀ context, e.properties = some context → MayCut 1048 998 (jsonText context)) ∧
    (Returns (smartTextProcessing text consoleMax fileMax label) ↔
      MayCut consoleMax (consoleMax - 50) text ∧ ∀ max, fileMax = some max → MayCut max (max - 100) text) ∧
    (Returns (Error.fromJson component path content message err location) ↔
      CutsBesideMarker content err.line err.column) :=
  ⟨returns_fmt e, returns_logWithOptions e jsonText logging file options logs, returns_smartTextProcessing,
    returns_fromJson component path content message err location⟩

/-- Showing an error whose message is 334 euro signs panics. -/
theorem euro_message_panics :
    ¬ Returns (Error.fmt ⟨"Import".toList, List.replicate 334 '€', [], .critical, none, none⟩) := by
  rw [returns_fmt]
  rintro ⟨hcut, -⟩
  exact absurd hcut (by decide +kernel)

end Returns

end Quantframe.Utils
