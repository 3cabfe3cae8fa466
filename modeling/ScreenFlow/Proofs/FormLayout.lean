import ScreenFlow.Proofs.Walk

/-!
# The form of a screen

A compiled screen shows the nodes that submit nothing first, in the order of their elements, then
one form with all others, in which footers come last. An element belongs into the form exactly when
an input or a footer stands somewhere inside it, so nothing that is submitted stays outside.
-/

namespace ScreenFlow.Flow

/-- Whether nodes of a type take a value that is submitted. -/
def NodeType.isInput : NodeType → Bool
  | .textInput | .textArea | .checkboxGroup | .radioButtonsGroup | .chipsSelector | .dropdown
  | .optIn | .datePicker | .calendarPicker | .photoPicker | .documentPicker => true
  | .textHeading | .textSubheading | .textBody | .textCaption | .richText | .embeddedLink | .image
  | .imageCarousel | .navigationList | .footer | .ifBlock | .switchBlock | .form => false

/-- Whether a node takes a value that is submitted. -/
def Node.isInput (n : Node) : Bool := n.nodeType.isInput

/-- Whether a node is a footer. -/
def Node.isFooter (n : Node) : Bool := n.nodeType == .footer

end ScreenFlow.Flow

namespace ScreenFlow.Design

/-- Whether an element itself, without its branches, takes part in submitting. -/
def Element.submits (e : Element) : Bool := e.kind.role == .input || e.kind.role == .footer

/-- The elements of a screen whose nodes stay outside the form. -/
def Screen.outsideForm (s : Screen) : List Element := s.elements.filter fun e => !e.isFormClass

/-- The elements of a screen whose nodes are in the form, footers last. -/
def Screen.insideForm (s : Screen) : List Element :=
  (s.elements.filter fun e => e.isFormClass && !e.isFooter) ++ s.elements.filter Element.isFooter

/-- Widgets have roles of their own. -/
theorem Widget.role_kind_ne_control (w : Widget) : w.kind.role ≠ .control := by
  cases w with
  | heading level => cases level <;> nofun
  | body style => cases style <;> nofun
  | textInput purpose => cases purpose <;> nofun
  | selector style => cases style <;> nofun
  | _ => nofun

namespace Element

/-- An element belongs into the form exactly when something inside it submits. -/
theorem isFormClass_eq_any_submits (e : Element) : e.isFormClass = e.walk.any submits := by
  -- Both recursions run over branches in step, so the case of a control element comes down to this
  -- fact about one branch.
  have ofBranch : ∀ es : List Element, (∀ e ∈ es, e.isFormClass = e.walk.any submits) →
      es.any isFormClass = (es.flatMap walk).any submits := by
    intro es ih
    rw [List.any_flatMap]
    induction es with
    | nil => rfl
    | cons e es tail =>
        rw [List.any_cons, List.any_cons, ih e List.mem_cons_self,
          tail fun x member => ih x (List.mem_cons_of_mem e member)]
  induction e using branchInduction with
  | widget w =>
      -- The two sides differ only for the role of control elements, which no widget has.
      have alone := w.role_kind_ne_control
      rw [isFormClass, walk, List.any_cons, List.any_nil, Bool.or_false, submits, kind]
      cases h : w.kind.role with
      | control => exact absurd h alone
      | _ => rfl
  | ifBlock condition thenBranch elseBranch ihThen ihElse =>
      rw [isFormClass, anyFormClass_eq, anyFormClass_eq, walk, walkBranch_eq, walkBranch_eq,
        ofBranch thenBranch ihThen, ofBranch elseBranch ihElse]
      simp [submits, kind, Kind.role]
  | switchBlock value cases ih =>
      rw [isFormClass, anyFormClassCase_eq, walk, walkCases_eq]
      -- A control element does not submit by itself: only its branches count.
      have control : submits (.switchBlock value cases) = false := rfl
      rw [List.any_cons, control, Bool.false_or, List.any_flatMap]
      induction cases with
      | nil => rfl
      | cons branch branches tail =>
          rw [List.any_cons, List.any_cons, ofBranch branch.2 (ih branch List.mem_cons_self),
            tail (fun b member => ih b (List.mem_cons_of_mem branch member)) rfl]

theorem isFormClass_of_isFooter {e : Element} (footer : e.isFooter = true) :
    e.isFormClass = true := by
  cases e with
  | widget w =>
      cases w with
      | footer => rfl
      | _ => exact absurd footer Bool.false_ne_true
  | ifBlock => exact absurd footer Bool.false_ne_true
  | switchBlock => exact absurd footer Bool.false_ne_true

end Element

end ScreenFlow.Design

namespace ScreenFlow.Compile

open ScreenFlow.Design (Element Kind Screen)
open ScreenFlow.Flow (Node NodeType)

/-! ## Types of mapped nodes -/

/-- The type of the nodes of a kind of element. All purposes of a line of input share one. -/
def nodeTypeOf : Kind → NodeType
  | .textHeading => .textHeading
  | .textSubheading => .textSubheading
  | .textBody => .textBody
  | .textCaption => .textCaption
  | .richText => .richText
  | .textInput | .emailInput | .passwordInput | .phoneInput => .textInput
  | .textArea => .textArea
  | .checkboxGroup => .checkboxGroup
  | .radioButtonsGroup => .radioButtonsGroup
  | .chipsSelector => .chipsSelector
  | .dropdown => .dropdown
  | .optIn => .optIn
  | .embeddedLink => .embeddedLink
  | .datePicker => .datePicker
  | .calendarPicker => .calendarPicker
  | .image => .image
  | .imageCarousel => .imageCarousel
  | .photoPicker => .photoPicker
  | .documentPicker => .documentPicker
  | .navigationList => .navigationList
  | .footer => .footer
  | .ifBlock => .ifBlock
  | .switchBlock => .switchBlock

/-- The type of a node depends on the kind of its element alone. -/
theorem nodeType_mapElement (ctx : Context) (e : Element) :
    (mapElement ctx e).nodeType = nodeTypeOf e.kind := by
  cases e with
  | widget w =>
      cases w with
      | heading level => cases level <;> rfl
      | body style => cases style <;> rfl
      | textInput purpose => cases purpose <;> rfl
      | selector style => cases style <;> rfl
      | _ => rfl
  | ifBlock => rfl
  | switchBlock => rfl

theorem isInput_nodeTypeOf (k : Kind) : (nodeTypeOf k).isInput = (k.role == .input) := by
  cases k <;> rfl

theorem isFooter_nodeTypeOf (k : Kind) : (nodeTypeOf k == .footer) = (k.role == .footer) := by
  cases k <;> rfl

/-- A node is an input or a footer exactly when its element submits. -/
theorem submits_mapElement (ctx : Context) (e : Element) :
    ((mapElement ctx e).isInput || (mapElement ctx e).isFooter) = e.submits := by
  rw [Node.isInput, Node.isFooter, nodeType_mapElement, isInput_nodeTypeOf, isFooter_nodeTypeOf,
    Element.submits]

/-- Nothing inside the node of an element outside the form submits. -/
theorem not_submits_of_mem_walk {ctx : Context} {e : Element} (outside : e.isFormClass = false)
    {n : Node} (member : n ∈ (mapElement ctx e).walk) :
    n.isInput = false ∧ n.isFooter = false := by
  rw [walk_mapElement] at member
  obtain ⟨inner, inside, rfl⟩ := List.mem_map.mp member
  rw [Element.isFormClass_eq_any_submits, List.any_eq_false] at outside
  have silent : inner.submits = false := by simpa using outside inner inside
  rw [← submits_mapElement ctx, Bool.or_eq_false_iff] at silent
  exact silent

/-! ## The children of a layout -/

/-- The form of a screen in a context. -/
def formNode (ctx : Context) (s : Screen) : Node :=
  .form Flow.formName (s.insideForm.map (mapElement ctx))

/-- The nodes outside the form in their order, then the form unless it would be empty. -/
theorem groupChildren_eq (mapped : List MappedElement) :
    groupChildren mapped =
      (mapped.filter fun m => !m.formClass).map MappedElement.node ++
        if mapped.any MappedElement.formClass then
          [.form Flow.formName ((((mapped.filter fun m => m.formClass && !m.footer) ++
            mapped.filter fun m => m.formClass && m.footer)).map MappedElement.node)]
        else [] := by
  -- The mapper asks whether the part for the form is empty, the statement what is in it.
  have empty : (mapped.filter MappedElement.formClass).isEmpty =
      !mapped.any MappedElement.formClass := by
    rw [List.not_any_eq_all_not, Bool.eq_iff_iff]
    simp [List.filter_eq_nil_iff]
  unfold groupChildren
  simp only [List.partition_eq_filter_filter, List.filter_filter, empty]
  cases mapped.any MappedElement.formClass with
  | true => simp [Function.comp_def, Bool.and_comm]
  | false => simp [Function.comp_def]

/-- What the layout of a screen shows: the nodes outside the form, then the form if there is one. -/
theorem children_compileScreen (previous : List Screen) (s : Screen) :
    (compileScreen previous s).layout.children =
      s.outsideForm.map (mapElement (Context.ofScreen previous s)) ++
        if s.elements.any Element.isFormClass then [formNode (Context.ofScreen previous s) s]
        else [] := by
  -- Footers are form-class, so the inner partition of the mapper is one of all elements.
  have footers : (fun e : Element => e.isFormClass && e.isFooter) = Element.isFooter := by
    funext e
    cases footer : e.isFooter with
    | true => rw [Element.isFormClass_of_isFooter footer]; rfl
    | false => rw [Bool.and_false]
  show groupChildren (s.elements.map (MappedElement.ofElement (Context.ofScreen previous s))) = _
  rw [groupChildren_eq]
  simp only [List.filter_map, List.any_map, List.map_map, List.map_append, Function.comp_def,
    MappedElement.ofElement, formNode, Screen.outsideForm, Screen.insideForm, footers]

/-- Every element of a screen stands on one side of the form's border, once. -/
theorem outsideForm_append_insideForm_perm (s : Screen) :
    (s.outsideForm ++ s.insideForm).Perm s.elements := by
  have fields : (s.elements.filter fun e => e.isFormClass && !e.isFooter) =
      (s.elements.filter Element.isFormClass).filter fun e => !e.isFooter := by
    rw [List.filter_filter]
    exact List.filter_congr fun e _ => Bool.and_comm _ _
  have footers : s.elements.filter Element.isFooter =
      (s.elements.filter Element.isFormClass).filter fun e => !(!e.isFooter) := by
    rw [List.filter_filter]
    apply List.filter_congr
    intro e _
    cases footer : e.isFooter with
    | true => rw [Element.isFormClass_of_isFooter footer]; rfl
    | false => rfl
  have inside : s.insideForm.Perm (s.elements.filter Element.isFormClass) := by
    rw [Screen.insideForm, fields, footers]
    exact List.filter_append_perm _ _
  have outside : (s.outsideForm ++ s.elements.filter Element.isFormClass).Perm s.elements := by
    have split := List.filter_append_perm Element.isFormClass s.elements
    exact List.perm_append_comm.trans split
  exact (inside.append_left s.outsideForm).trans outside

theorem isFormClass_of_mem_outsideForm {s : Screen} {e : Element} (member : e ∈ s.outsideForm) :
    e.isFormClass = false := by
  simpa using (List.mem_filter.mp member).2

/-- Without form-class elements nothing is inside the form. -/
theorem insideForm_eq_nil {s : Screen} (none : s.elements.any Element.isFormClass = false) :
    s.insideForm = [] := by
  rw [List.any_eq_false] at none
  rw [Screen.insideForm, List.append_eq_nil_iff, List.filter_eq_nil_iff, List.filter_eq_nil_iff]
  constructor
  · intro e member
    simp [none e member]
  · intro e member footer
    exact none e member (Element.isFormClass_of_isFooter footer)

end ScreenFlow.Compile
