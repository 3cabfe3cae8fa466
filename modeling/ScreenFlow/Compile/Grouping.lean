import ScreenFlow.Compile.Mapping

/-!
# Grouping into the form

Of the top-level nodes of a screen those that are submitted go into one form after all others. Each
group keeps its order, and footers close the form.
-/

namespace ScreenFlow.Compile

/-- A node with what its element says about the form. -/
structure MappedElement where
  node : Flow.Node
  /-- Whether the node belongs into the form. -/
  formClass : Bool
  /-- Whether the node is a footer. -/
  footer : Bool
  deriving DecidableEq, Repr

namespace MappedElement

/-- Maps an element and keeps what it says about the form. -/
def ofElement (ctx : Context) (e : Design.Element) : MappedElement :=
  ⟨mapElement ctx e, e.isFormClass, e.isFooter⟩

end MappedElement

/-- The children of a layout: the nodes outside the form, then the form if it holds anything. -/
def groupChildren (mapped : List MappedElement) : List Flow.Node :=
  let (form, outside) := mapped.partition MappedElement.formClass
  let (footers, fields) := form.partition MappedElement.footer
  let children := outside.map MappedElement.node
  if form.isEmpty then children
  else children ++ [.form Flow.formName ((fields ++ footers).map MappedElement.node)]

end ScreenFlow.Compile
