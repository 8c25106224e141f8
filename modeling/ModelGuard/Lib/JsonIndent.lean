import ModelGuard.Lib.JsonJoin
import ModelGuard.Lib.JsonPretty

/-!
# Indented JSON text

`json.dumps(v, indent=2, sort_keys=True)`, and that the decoder reads it back.
-/

namespace Lib.Json

variable {F : Type} [FloatText F]

mutual
def dumpsIndent : Nat → Json F → Str
  | _, .null => dumps (.null : Json F)
  | _, .bool b => dumps (.bool b : Json F)
  | _, .int n => dumps (.int n : Json F)
  | _, .float x => dumps (.float x)
  | _, .str s => dumps (.str s : Json F)
  | _, .arr [] => dumps (.arr [] : Json F)
  | level, .arr (v :: items) =>
    cp '[' :: (lineBreak (level + 1) ++ dumpsIndent (level + 1) v ++ indentItems level items)
  | _, .obj [] => dumps (.obj [] : Json F)
  | level, .obj ((k, v) :: fields) =>
    cp '\x7b' :: (lineBreak (level + 1) ++ quote k ++ cp ':' :: cp ' ' :: dumpsIndent (level + 1) v ++
      indentFields level fields)

def indentItems : Nat → List (Json F) → Str
  | level, [] => lineBreak level ++ [cp ']']
  | level, v :: items => cp ',' :: (lineBreak (level + 1) ++ dumpsIndent (level + 1) v ++ indentItems level items)

def indentFields : Nat → List (Str × Json F) → Str
  | level, [] => lineBreak level ++ [cp '\x7d']
  | level, (k, v) :: fields =>
    cp ',' :: (lineBreak (level + 1) ++ quote k ++ cp ':' :: cp ' ' :: dumpsIndent (level + 1) v ++
      indentFields level fields)
end

/-- Everything outside ASCII is escaped. -/
def asciiQuoting : Quoting where
  quote := quote
  fits := Joined
  head _ := ⟨_, rfl⟩
  reads {s t body} joined starts := by
    obtain ⟨other, same, scanned⟩ := scanString_quote joined t
    rw [same] at starts
    rw [← List.tail_eq_of_cons_eq starts]
    exact scanned

mutual
theorem dumpsIndent_eq (level : Nat) : ∀ v : Json F, dumpsIndent level v = pretty asciiQuoting level v
  | .null => by rw [dumpsIndent, pretty]
  | .bool _ => by rw [dumpsIndent, pretty]
  | .int _ => by rw [dumpsIndent, pretty]
  | .float _ => by rw [dumpsIndent, pretty]
  | .str _ => by rw [dumpsIndent, pretty, dumps]; rfl
  | .arr [] => by rw [dumpsIndent, pretty]
  | .arr (v :: items) => by
    rw [dumpsIndent, pretty, dumpsIndent_eq (level + 1) v, indentItems_eq level items]
  | .obj [] => by rw [dumpsIndent, pretty]
  | .obj ((_, v) :: fields) => by
    rw [dumpsIndent, pretty, dumpsIndent_eq (level + 1) v, indentFields_eq level fields]
    rfl

theorem indentItems_eq (level : Nat) : ∀ items : List (Json F), indentItems level items = prettyItems asciiQuoting level items
  | [] => by rw [indentItems, prettyItems]
  | v :: items => by rw [indentItems, prettyItems, dumpsIndent_eq (level + 1) v, indentItems_eq level items]

theorem indentFields_eq (level : Nat) :
    ∀ fields : List (Str × Json F), indentFields level fields = prettyFields asciiQuoting level fields
  | [] => by rw [indentFields, prettyFields]
  | (_, v) :: fields => by
    rw [indentFields, prettyFields, dumpsIndent_eq (level + 1) v, indentFields_eq level fields]
    rfl
end

theorem loads_dumpsIndent {v : Json F} (wf : WF v) : loads (dumpsIndent 0 v) = some v := by
  rw [dumpsIndent_eq, loads_pretty (texts_of_wf wf), sortMembers_of_wf wf]

mutual
theorem dumpsIndent_joinStrings (level : Nat) : ∀ v : Json F, dumpsIndent level (joinStrings v) = dumpsIndent level v
  | .null => by rw [joinStrings]
  | .bool _ => by rw [joinStrings]
  | .int _ => by rw [joinStrings]
  | .float _ => by rw [joinStrings]
  | .str s => by rw [joinStrings, dumpsIndent, dumpsIndent, dumps, dumps, quote_joinText]
  | .arr [] => by rw [joinStrings, joinItems]
  | .arr (v :: items) => by
    rw [joinStrings, joinItems, dumpsIndent, dumpsIndent, dumpsIndent_joinStrings (level + 1) v,
      indentItems_joinItems level items]
  | .obj [] => by rw [joinStrings, joinFields]
  | .obj ((k, v) :: fields) => by
    rw [joinStrings, joinFields, dumpsIndent, dumpsIndent, dumpsIndent_joinStrings (level + 1) v,
      indentFields_joinFields level fields]

theorem indentItems_joinItems (level : Nat) :
    ∀ items : List (Json F), indentItems level (joinItems items) = indentItems level items
  | [] => by rw [joinItems]
  | v :: items => by
    rw [joinItems, indentItems, indentItems, dumpsIndent_joinStrings (level + 1) v, indentItems_joinItems level items]

theorem indentFields_joinFields (level : Nat) :
    ∀ fields : List (Str × Json F), indentFields level (joinFields fields) = indentFields level fields
  | [] => by rw [joinFields]
  | (k, v) :: fields => by
    rw [joinFields, indentFields, indentFields, dumpsIndent_joinStrings (level + 1) v,
      indentFields_joinFields level fields]
end

end Lib.Json
