import DialogueEngine.Proofs.Json.Reading

/-! # Writers and readers

A writer and a reader of one type belong together. What holds of all values of a type is said
with two predicates on them: which values can be written at all, and which of these are read
again; the others are refused.

* `Codec` — writer and reader agree.
* `Codec.reread` — the same on bytes.
* `Codec.list`, `Codec.dict` — lists and dictionaries of values of a type.
-/

namespace DialogueEngine.Json

variable {α : Type}

/-- The values that fit are written to a depth; those of them that are finite are read as they
    are, and nothing that is not finite is ever read. -/
structure Codec (fits : α → Prop) (finite : α → Bool) (depth : Nat) (write : α → Json)
    (read : Json → Option α) : Prop where
  written : ∀ x, fits x → Written depth (write x)
  read_write : ∀ x, fits x → read (write x) = Option.guard finite x
  finite_of_read : ∀ j x, read j = some x → finite x = true

/-- What a reader makes of a document after it has been written. -/
def reread (read : Json → Option α) (j : Json) : Option α := (parse? j.write).bind read

namespace Codec

variable {fits : α → Prop} {finite : α → Bool} {depth : Nat} {write : α → Json}
  {read : Json → Option α}

theorem reread (codec : Codec fits finite depth write read) {x : α} (fit : fits x) :
    reread read (write x) = Option.guard finite x := by
  rw [Json.reread, parse?_write (codec.written x fit)]
  exact codec.read_write x fit

theorem list (codec : Codec fits finite depth write read) :
    Codec (fun xs => ∀ x ∈ xs, fits x) (·.all finite) (depth + 1) (Json.list write)
      (items? read) where
  written _ fit := .list fun x mem => codec.written x (fit x mem)
  read_write _ fit := items?_list fun x mem => codec.read_write x (fit x mem)
  finite_of_read _ _ read := List.all_eq_true.mpr (of_items? codec.finite_of_read read)

theorem dict (codec : Codec fits finite depth write read) :
    Codec (fun d : Dict String α => ∀ e ∈ d.entries, fits e.2) (·.entries.all (finite ·.2))
      (depth + 1) (fun d => Json.dict write d.entries) (dict? read) where
  written _ fit := .dict fun e mem => codec.written e.2 (fit e mem)
  read_write _ fit := dict?_dict fun e mem => codec.read_write e.2 (fit e mem)
  finite_of_read _ _ read := List.all_eq_true.mpr (of_dict? codec.finite_of_read read)

end Codec

end DialogueEngine.Json
