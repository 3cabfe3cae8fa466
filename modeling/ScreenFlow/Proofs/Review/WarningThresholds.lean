import ScreenFlow.Proofs.Review.Produced

/-!
# Warning thresholds

A threshold is a percentage of a limit, in words of 64 bits: where the product is greater than all
of them it stops at the greatest, so a higher limit or percentage never gives a lower threshold.
Captions and the numbers of components are held against thresholds only where they keep their limit.
So later warnings are fewer warnings: all errors stay, and so does every warning that is left, in
its place and word for word.
-/

namespace ScreenFlow.Review

open ScreenFlow.Design (Element Screen Widget)

/-! ## Percentages -/

theorem toNat_percentOf (limit percent : UInt64) :
    (percentOf limit percent).toNat =
      min (limit.toNat * percent.toNat) (UInt64.size - 1) / 100 := by
  have size : UInt64.size = 18446744073709551616 := rfl
  rw [percentOf, UInt64.toNat_ofNat_of_lt']
  omega

theorem toNat_percentOf_of_lt {limit percent : UInt64}
    (fits : limit.toNat * percent.toNat < UInt64.size) :
    (percentOf limit percent).toNat = limit.toNat * percent.toNat / 100 := by
  rw [toNat_percentOf, Nat.min_eq_left (Nat.le_sub_one_of_lt fits)]

theorem percentOf_le_self {percent : UInt64} (part : percent ≤ 100) (limit : UInt64) :
    percentOf limit percent ≤ limit := by
  rw [UInt64.le_iff_toNat_le] at part ⊢
  calc (percentOf limit percent).toNat
      ≤ limit.toNat * percent.toNat / 100 := by
        rw [toNat_percentOf]
        exact Nat.div_le_div_right (Nat.min_le_left _ _)
    _ ≤ limit.toNat * 100 / 100 := Nat.div_le_div_right (Nat.mul_le_mul_left _ part)
    _ = limit.toNat := Nat.mul_div_cancel _ (by decide)

/-- Beyond the greatest word the product stands still, and it never goes down. -/
theorem percentOf_le_percentOf {limit limit' percent percent' : UInt64} (limits : limit ≤ limit')
    (percents : percent ≤ percent') : percentOf limit percent ≤ percentOf limit' percent' := by
  rw [UInt64.le_iff_toNat_le] at limits percents ⊢
  rw [toNat_percentOf, toNat_percentOf]
  have products : limit.toNat * percent.toNat ≤ limit'.toNat * percent'.toNat :=
    Nat.mul_le_mul limits percents
  apply Nat.div_le_div_right
  omega

/-- Twice and ten times the greatest word have the same product, a word of which is left. -/
example : percentOf 18446744073709551615 2 = 184467440737095516 ∧
    percentOf 18446744073709551615 10 = 184467440737095516 := by decide

/-! ## Fewer warnings -/

/-- Findings are others without some of the warnings among them. -/
structure Thins (fewer more : List Finding) : Prop where
  sublist : fewer.Sublist more
  errors : fewer.filter Finding.isError = more.filter Finding.isError

namespace Thins

theorem refl (fs : List Finding) : Thins fs fs := ⟨List.Sublist.refl fs, rfl⟩

theorem append {fewer more fewer' more' : List Finding} (first : Thins fewer more)
    (second : Thins fewer' more') : Thins (fewer ++ fewer') (more ++ more') := by
  refine ⟨first.sublist.append second.sublist, ?_⟩
  rw [List.filter_append, List.filter_append, first.errors, second.errors]

theorem flatMap {α : Type} {fewer more : α → List Finding} {as : List α}
    (each : ∀ a ∈ as, Thins (fewer a) (more a)) : Thins (as.flatMap fewer) (as.flatMap more) := by
  induction as with
  | nil => exact refl []
  | cons a as ih =>
      obtain ⟨first, others⟩ := List.forall_mem_cons.mp each
      exact first.append (ih others)

/-- Places stand before messages alike. -/
theorem inContext {fewer more : List Finding} (thins : Thins fewer more) (context : String) :
    Thins (fewer.map (Finding.inContext context)) (more.map (Finding.inContext context)) := by
  refine ⟨thins.sublist.map _, ?_⟩
  rw [List.filter_map, List.filter_map]
  exact congrArg (List.map _) thins.errors

/-- A warning above a threshold is left or goes away as the threshold rises. -/
theorem ofThreshold {low high : UInt64} (raised : low ≤ high) (current : Nat) {f : Finding}
    (warning : f.isError = false) :
    Thins (if high.toNat < current then [f] else []) (if low.toNat < current then [f] else []) := by
  rw [UInt64.le_iff_toNat_le] at raised
  by_cases above : high.toNat < current
  · rw [if_pos above, if_pos (Nat.lt_of_le_of_lt raised above)]
    exact refl [f]
  · rw [if_neg above]
    refine ⟨List.nil_sublist _, ?_⟩
    by_cases close : low.toNat < current
    · rw [if_pos close]
      simp [warning]
    · rw [if_neg close]

/-- The report of fewer warnings has the same errors and a part of the warnings. -/
theorem ofFindings {fewer more : List Finding} (thins : Thins fewer more) :
    (Report.ofFindings fewer).errors = (Report.ofFindings more).errors ∧
      (Report.ofFindings fewer).warnings.Sublist (Report.ofFindings more).warnings := by
  have warnings := thins.sublist.filter fun f => f.kind = .warning
  rw [← Report.filed_ofFindings, ← Report.filed_ofFindings] at warnings
  refine ⟨?_, warnings⟩
  calc (Report.ofFindings fewer).errors
    _ = fewer.filter Finding.isError := Report.filed_ofFindings fewer .error
    _ = more.filter Finding.isError := thins.errors
    _ = (Report.ofFindings more).errors := (Report.filed_ofFindings more .error).symm

end Thins

/-! ## Later warnings -/

/-- The same limits with other percentages. -/
def Limits.withPercents (limits : Limits) (caption components : UInt64) : Limits :=
  { limits with captionWarningPercent := caption, componentsWarningPercent := components }

theorem Limits.captionText_withPercents (limits : Limits) (caption components : UInt64) :
    (limits.withPercents caption components).captionText = limits.captionText := rfl

theorem Limits.componentsPerScreen_withPercents (limits : Limits) (caption components : UInt64) :
    (limits.withPercents caption components).componentsPerScreen = limits.componentsPerScreen := rfl

/-- One table differs from another in the percentages alone, and by none of them warns later. -/
structure Limits.WarnsBefore (early late : Limits) : Prop where
  same : late = early.withPercents late.captionWarningPercent late.componentsWarningPercent
  captionWarningPercent : early.captionWarningPercent ≤ late.captionWarningPercent
  componentsWarningPercent : early.componentsWarningPercent ≤ late.componentsWarningPercent

section Percents

variable {early : Limits} {caption components : UInt64}

theorem thins_captionText (later : early.captionWarningPercent ≤ caption) (text : String) :
    Thins (captionText (early.withPercents caption components) text) (captionText early text) := by
  have threshold : early.captionWarningThreshold ≤
      (early.withPercents caption components).captionWarningThreshold :=
    percentOf_le_percentOf (UInt64.le_refl _) later
  rw [captionText, captionText, Limits.captionText_withPercents]
  -- Percentages do not come into the check before the warning, so it goes the same way twice.
  cases requiredText "text" "Text" text early.captionText with
  | nil => exact .ofThreshold threshold text.length rfl
  | cons f fs => exact .refl _

theorem thins_componentCount (later : early.componentsWarningPercent ≤ components) (count : Nat) :
    Thins (componentCount (early.withPercents caption components) count)
      (componentCount early count) := by
  have threshold : early.componentsWarningThreshold ≤
      (early.withPercents caption components).componentsWarningThreshold :=
    percentOf_le_percentOf (UInt64.le_refl _) later
  rw [componentCount, componentCount, Limits.componentsPerScreen_withPercents]
  cases maxOnScreen "components" count early.componentsPerScreen with
  | nil => exact .ofThreshold threshold count rfl
  | cons f fs => exact .refl _

/-- Of all elements only captions have a threshold. -/
theorem thins_ownFindings (later : early.captionWarningPercent ≤ caption) (e : Element) :
    Thins (ownFindings (early.withPercents caption components) e) (ownFindings early e) := by
  cases e with
  | widget w =>
      cases w with
      | body level attrs =>
          cases level with
          | body => exact .refl _
          | caption => exact thins_captionText later attrs.text
      | _ => exact .refl _
  | ifBlock condition thenBranch elseBranch => exact .refl _
  | switchBlock value cases => exact .refl _

theorem thins_screenFindings (later : early.componentsWarningPercent ≤ components) (s : Screen) :
    Thins (screenFindings (early.withPercents caption components) s) (screenFindings early s) :=
  (((thins_componentCount later _).append (.refl _)).append (.refl _)).append (.refl _)

theorem thins_producedByDocument (captions : early.captionWarningPercent ≤ caption)
    (counts : early.componentsWarningPercent ≤ components) (screens : List Screen) :
    Thins (producedByDocument (early.withPercents caption components) screens)
      (producedByDocument early screens) := by
  have onElement (e : Element) :
      Thins (producedByElement (early.withPercents caption components) e)
        (producedByElement early e) :=
    .flatMap fun p _ => (thins_ownFindings captions p.2).inContext _
  have onScreen (s : Screen) :
      Thins (producedByScreen (early.withPercents caption components) s)
        (producedByScreen early s) :=
    (Thins.flatMap fun c _ => (onElement c.1).inContext _).append (thins_screenFindings counts s)
  exact (Thins.flatMap fun s _ => (onScreen s).inContext _).append (.refl _)

end Percents

/-! ## Main statement -/

/--
A percentage of a limit is that of the exact product, cut off at the greatest word, so nothing wraps
around: where the product fits it is the exact percentage rounded down, up to a hundred per cent it
is at most the limit, and it never goes down with the limit or the percentage. Under limits that
differ from others in their percentages alone, which are no lower, the report on a document has the
same errors, and its warnings are some of the others in the same order, with their messages.
-/
theorem warnings_sublist_of_warnsBefore :
    (∀ limit percent : UInt64,
      (percentOf limit percent).toNat =
        min (limit.toNat * percent.toNat) (UInt64.size - 1) / 100 ∧
      (limit.toNat * percent.toNat < UInt64.size →
        (percentOf limit percent).toNat = limit.toNat * percent.toNat / 100) ∧
      (percent ≤ 100 → percentOf limit percent ≤ limit) ∧
      ∀ limit' percent', limit ≤ limit' → percent ≤ percent' →
        percentOf limit percent ≤ percentOf limit' percent') ∧
    ∀ early late : Limits, early.WarnsBefore late → ∀ screens : List Screen,
      (documentReport late screens).errors = (documentReport early screens).errors ∧
      (documentReport late screens).warnings.Sublist (documentReport early screens).warnings := by
  constructor
  · intro limit percent
    exact ⟨toNat_percentOf limit percent, toNat_percentOf_of_lt,
      fun part => percentOf_le_self part limit, fun _ _ => percentOf_le_percentOf⟩
  · intro early late before screens
    obtain ⟨same, captions, counts⟩ := before
    have thins := thins_producedByDocument captions counts screens
    rw [← same] at thins
    rw [documentReport_eq_ofFindings, documentReport_eq_ofFindings]
    exact thins.ofFindings

/-- Limits that leave captions ten characters and warn of them above so many per cent. -/
def tenCharacters (percent : UInt64) : Limits :=
  { Limits.default with captionText := 10, captionWarningPercent := percent }

/-- A screen with captions of seven and of twelve characters in a branch, and no label on its
footer. -/
def captions : List Screen := [
  ⟨"START", "Start", [
    .ifBlock "${data.brief}" [
      .widget (.body .caption ⟨"seven..", none, none, none, none⟩),
      .widget (.body .caption ⟨"twelve chars", none, none, none, none⟩)] [],
    .widget (.footer ⟨"", none, none, none, none, some ⟨.complete, none, none, none⟩⟩)]⟩]

/-- Seven characters are worth a warning above five but not above eight, and the two errors stay. -/
theorem captions_warn_later :
    (tenCharacters 50).WarnsBefore (tenCharacters 80) ∧
      (documentReport (tenCharacters 80) captions).errors =
        (documentReport (tenCharacters 50) captions).errors ∧
      (documentReport (tenCharacters 80) captions).errors.length = 2 ∧
      (documentReport (tenCharacters 80) captions).warnings.Sublist
        (documentReport (tenCharacters 50) captions).warnings ∧
      (documentReport (tenCharacters 50) captions).warnings.length = 1 ∧
      (documentReport (tenCharacters 80) captions).warnings = [] := by
  have before : (tenCharacters 50).WarnsBefore (tenCharacters 80) := ⟨rfl, by decide, by decide⟩
  obtain ⟨errors, warnings⟩ := warnings_sublist_of_warnsBefore.2 _ _ before captions
  exact ⟨before, errors, by decide +kernel, warnings, by decide +kernel, by decide +kernel⟩

end ScreenFlow.Review
