import ScreenFlow.DataSource
import ScreenFlow.Proofs.Codec.Records
import ScreenFlow.Vocabulary

/-!
# Shared forms that read what they write

The names that attributes choose from and the options of selectors have one form in designs and in
documents, and all of them are lawful.
-/

namespace ScreenFlow

open ScreenFlow.Codec ScreenFlow.Codec.Fields ScreenFlow.Json

instance : Codec.Lawful ActionName.codec := Codec.choice_lawful fun a => by cases a <;> rfl

instance : Codec.Solid ActionName.codec := inferInstanceAs (Codec.Solid (.choice _ _))

instance : Codec.Lawful FontWeight.codec := Codec.choice_lawful fun a => by cases a <;> rfl

instance : Codec.Solid FontWeight.codec := inferInstanceAs (Codec.Solid (.choice _ _))

instance : Codec.Lawful InputType.codec := Codec.choice_lawful fun a => by cases a <;> rfl

instance : Codec.Solid InputType.codec := inferInstanceAs (Codec.Solid (.choice _ _))

instance : Codec.Lawful CalendarMode.codec := Codec.choice_lawful fun a => by cases a <;> rfl

instance : Codec.Solid CalendarMode.codec := inferInstanceAs (Codec.Solid (.choice _ _))

instance : Codec.Lawful ScaleType.codec := Codec.choice_lawful fun a => by cases a <;> rfl

instance : Codec.Solid ScaleType.codec := inferInstanceAs (Codec.Solid (.choice _ _))

instance : Codec.Lawful PhotoSource.codec := Codec.choice_lawful fun a => by cases a <;> rfl

instance : Codec.Solid PhotoSource.codec := inferInstanceAs (Codec.Solid (.choice _ _))

instance : Codec.Lawful MediaSize.codec := Codec.choice_lawful fun a => by cases a <;> rfl

instance : Codec.Solid MediaSize.codec := inferInstanceAs (Codec.Solid (.choice _ _))

/-! ## Options of selectors -/

instance : LawfulRecord SelectOption.fields :=
  ⟨by decide, by unfold SelectOption.fields; infer_instance⟩

instance : Codec.Lawful DataSource.optionsCodec :=
  inferInstanceAs (Codec.Lawful (.list (SelectOption.fields.codec "SelectOption")))

instance : Codec.Lawful DataSource.codec where
  decode_encode origin source distinct := by
    cases source with
    | reference name => rfl
    | options list =>
        have read := Codec.Lawful.decode_encode (c := DataSource.optionsCodec) .held list distinct
        unfold DataSource.codec
        dsimp only
        split
        · rename_i other
          cases other
        · rw [read]

instance : Codec.Solid DataSource.codec where
  encode_ne_null source := by cases source <;> exact Value.noConfusion

end ScreenFlow
