import PdfAssembly.Failure

/-! What the user is told about a failure: a message that names what they wrote, a suggestion,
and where the remedy lies. -/
namespace PdfAssembly

/-- Where a failure is to be mended: on the command line, in an input file, or elsewhere. -/
inductive Severity
  | usage
  | input
  | environment
deriving DecidableEq, Repr

structure Advice where
  message : String
  suggestion : String
  severity : Severity
deriving DecidableEq, Repr

namespace Advice

def spec (error : SpecError) : String :=
  match error with
  | .malformedToken _ => "Use at most one ':' per token and one '-' per range, e.g. 2:1,3-5."
  | .invalidDocumentIndex _ =>
    "Document indices start at 1 and cannot exceed the number of input files."
  | .invalidPageIndex _ _ => "Page numbers start at 1 and cannot exceed the page count."
  | .invalidRotationValue _ => "Rotation must be one of 0, 90, 180 or 270."
  | .emptyPageList _ => "Put the pages before the ':', e.g. 1-3:90."

def io (error : IoError) : Advice :=
  match error.kind with
  | .notFound =>
    ⟨s!"A file could not be found: {error.text}", "Check the path is spelled correctly.",
      .environment⟩
  | .permissionDenied =>
    ⟨s!"Permission denied: {error.text}", "Check the file and directory permissions.",
      .environment⟩
  | .other =>
    ⟨s!"Reading or writing a file failed: {error.text}",
      "Check there is enough free space and try again.", .environment⟩

def ofFailure (failure : Failure) : Advice :=
  match failure with
  | .spec error => ⟨failure.message, spec error, .usage⟩
  | .pdf fault =>
    ⟨s!"A PDF could not be processed: {fault.message}",
      "Check the file opens in a PDF viewer. Damaged files cannot be used.", .input⟩
  | .protectedDocument _ =>
    ⟨failure.message, "Remove the password protection and try again.", .input⟩
  | .documentOutOfRange _ _ =>
    ⟨failure.message, "Document indices count the -i files from 1.", .usage⟩
  | .invalidInput _ =>
    ⟨failure.message, "Inputs must be existing files ending in .pdf.", .usage⟩
  | .outputExists _ =>
    ⟨failure.message, "Choose another output path, or pass -f to replace the file.", .usage⟩
  | .outputIsDirectory _ =>
    ⟨failure.message, "Give a file name, e.g. -o output.pdf.", .usage⟩
  | .settings _ =>
    ⟨failure.message, "Fix the configuration file or run without --config.", .usage⟩
  | .json _ =>
    ⟨failure.message, "Fix the configuration file or run without --config.", .usage⟩
  | .io error => io error

end Advice

end PdfAssembly
