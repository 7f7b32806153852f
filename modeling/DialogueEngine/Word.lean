/-! # Words

Numbers and indexes of documents and commands are words of 64 bits, and so are the seconds of a
duration.
-/

namespace DialogueEngine

/-- The number of words: two to the power of 64. -/
def Word.bound : Nat := 18446744073709551616

end DialogueEngine
