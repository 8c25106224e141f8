import ModelGuard.Lib.JsonRoundTrip

/-!
# Reading the members of an object
-/

namespace Lib.Json

variable {F α : Type}

/-- No member but the given ones. -/
def onlyKeys (keys : List Str) (fields : List (Str × Json F)) : Bool := fields.all fun e => e.1 ∈ keys

def text : Json F → Option Str
  | .str s => some s
  | _ => none

/-- `null`, or what `read` accepts. -/
def nullable (read : Json F → Option α) : Json F → Option (Option α)
  | .null => some none
  | v => (read v).map some

def readItems (read : Json F → Option α) : List (Json F) → Option (List α)
  | [] => some []
  | v :: items => (read v).bind fun a => (readItems read items).map (a :: ·)

def items (read : Json F → Option α) : Json F → Option (List α)
  | .arr vs => readItems read vs
  | _ => none

def required (read : Json F → Option α) (key : String) (fields : List (Str × Json F)) : Option α :=
  (fields.lookup (Lib.str key)).bind read

/-- A member that may be absent. -/
def orDefault (default : α) (read : Json F → Option α) (key : String) (fields : List (Str × Json F)) : Option α :=
  (fields.lookup (Lib.str key)).elim (some default) read

theorem sorted_of_sublist {fields : List (Str × Json F)} {keys : List Str} (sub : (fields.map (·.1)).Sublist keys)
    (sorted : keys.Pairwise (· < ·)) : Dict.Sorted fields := List.pairwise_map.mp (sorted.sublist sub)

theorem onlyKeys_of_sublist {fields : List (Str × Json F)} {keys : List Str} (sub : (fields.map (·.1)).Sublist keys) :
    onlyKeys keys fields = true := by
  unfold onlyKeys
  rw [List.all_eq_true]
  intro e mem
  exact decide_eq_true (sub.subset (List.mem_map_of_mem mem))

theorem onlyKeys_ofPairs {keys : List Str} {fields : List (Str × Json F)} (only : onlyKeys keys fields = true) :
    onlyKeys keys (Dict.ofPairs fields) = true := by
  unfold onlyKeys at only ⊢
  rw [List.all_eq_true] at only ⊢
  intro e mem
  exact only e (Dict.mem_ofPairs mem)

/-- An object with some of the given keys, which are sorted and free of surrogates. -/
theorem wf_obj {fields : List (Str × Json F)} {keys : List Str} (sub : (fields.map (·.1)).Sublist keys)
    (sorted : keys.Pairwise (· < ·)) (plain : (keys.all fun key => key.all fun c => !isSurrogate c) = true)
    (values : ∀ e ∈ fields, WF e.2) : WF (.obj fields) := by
  refine .obj (sorted_of_sublist sub sorted) (fun e mem => ?_) values
  have key := List.all_eq_true.mp plain _ (sub.subset (List.mem_map_of_mem mem))
  refine joined_of_scalars fun c inKey => ?_
  simpa using List.all_eq_true.mp key c inKey

theorem readItems_map {write : α → Json F} {read : Json F → Option α} {as : List α}
    (reads : ∀ a ∈ as, read (write a) = some a) : readItems read (as.map write) = some as := by
  induction as with
  | nil => rfl
  | cons a as ih =>
    obtain ⟨first, rest⟩ := List.forall_mem_cons.mp reads
    rw [List.map_cons, readItems, first, Option.bind_some, ih rest, Option.map_some]

end Lib.Json
