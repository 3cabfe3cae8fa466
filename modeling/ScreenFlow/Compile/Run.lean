import ScreenFlow.Compile.Document
import ScreenFlow.Review.Document

/-!
# Compilation runs

One run compiles screens and, on request, reviews them first. Findings go with the document and
never stop it.
-/

namespace ScreenFlow.Compile

open ScreenFlow.Review

/-- What one run gives. -/
structure Artifacts where
  document : Flow.Document
  /-- The report, when a review was asked for. -/
  report : Option Report
  deriving DecidableEq, Repr

/-- Compiles screens, with a review against limits where one is asked for. -/
def run (screens : List Design.Screen) (review : Option Limits) : Except CompileError Artifacts :=
  (compileFlow screens).map fun document =>
    ⟨document, review.map fun limits => documentReport limits screens⟩

end ScreenFlow.Compile
