import DocComments.Entry.Query
import DocComments.Document.Format
import DocComments.Pattern.Search

/-!
# Failures of a run

A failure is what the run could not do, and most have a cause from another part of the library.
`Failure.report` is the text that tells both.
-/

namespace DocComments.Command

/-- Why a run stopped. -/
inductive Failure where
  /-- Standard input cannot be read. -/
  | unreadableInput (cause : SystemError)
  /-- A file cannot be read. -/
  | unreadableFile (path : Path) (cause : SystemError)
  /-- A directory cannot be listed. -/
  | unreadableDirectory (path : Path) (cause : SystemError)
  /-- An argument names nothing and is no pattern. -/
  | badPattern (arg : Text) (cause : PatternError)
  /-- A comment lacks a tag that it must have. -/
  | missingTag (source : Text) (line : Nat) (key : Text) (cause : LookupError)
  /-- There is no format of this name. -/
  | unknownFormat (name : Text)
  /-- The directory for the output cannot be made. -/
  | noOutputDirectory (path : Path) (cause : SystemError)
  /-- A file cannot be written. -/
  | unwritableFile (path : Path) (cause : SystemError)
  deriving DecidableEq, Repr

namespace Failure

/-- What could not be done. -/
def message : Failure → Text
  | unreadableInput _ => "failed to read stdin".toList
  | unreadableFile path _ => "failed to read ".toList ++ path
  | unreadableDirectory path _ => "failed to read directory: ".toList ++ path
  | badPattern arg _ => "invalid glob pattern: ".toList ++ arg
  | missingTag source line key _ =>
    source ++ ':' :: Text.ofNat line ++ ": missing required @".toList ++ key
  | unknownFormat name => Format.unknownMessage name
  | noOutputDirectory path _ => "failed to create output directory: ".toList ++ path
  | unwritableFile path _ => "failed to write ".toList ++ path

/-- Why it could not be done. -/
def cause? : Failure → Option Text
  | unreadableInput e => some e.message
  | unreadableFile _ e => some e.message
  | unreadableDirectory _ e => some e.message
  | badPattern _ e => some e.message
  | missingTag _ _ _ e => some e.message
  | unknownFormat _ => none
  | noOutputDirectory _ e => some e.message
  | unwritableFile _ e => some e.message

/-- How far the cause is indented in a report. -/
def causeIndent : Text :=
  List.replicate 4 ' '

/-- The text that tells a failure, with its cause in an indented paragraph. -/
def report (f : Failure) : Text :=
  match f.cause? with
  | none => f.message ++ ['\n']
  | some cause =>
    f.message ++ "\n\nCaused by:\n".toList ++ causeIndent ++
      cause.flatMap (fun c => if c = '\n' then '\n' :: causeIndent else [c]) ++ ['\n']

end Failure

end DocComments.Command
