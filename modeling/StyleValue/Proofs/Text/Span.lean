/-! The longest start of a list whose members pass a test, said by what the rest
begins with. -/

namespace StyleValue

variable {α : Type} {test : α → Bool} {taken rest : List α}

theorem takeWhile_append_of_stops (inside : ∀ c ∈ taken, test c = true)
    (stops : ∀ c ∈ rest.head?, test c = false) :
    (taken ++ rest).takeWhile test = taken := by
  rw [List.takeWhile_append_of_pos inside]
  cases rest with
  | nil => rw [List.takeWhile_nil, List.append_nil]
  | cons next rest =>
      rw [List.takeWhile_cons_of_neg (by simp [stops next rfl]),
        List.append_nil]

theorem dropWhile_append_of_stops (inside : ∀ c ∈ taken, test c = true)
    (stops : ∀ c ∈ rest.head?, test c = false) :
    (taken ++ rest).dropWhile test = rest := by
  rw [List.dropWhile_append_of_pos inside]
  cases rest with
  | nil => rfl
  | cons next rest => exact List.dropWhile_cons_of_neg (by simp [stops next rfl])

theorem stops_dropWhile (test : α → Bool) (text : List α) :
    ∀ c ∈ (text.dropWhile test).head?, test c = false := by
  intro c isHead
  have stopped := List.head?_dropWhile_not test text
  rw [Option.mem_def.mp isHead] at stopped
  simpa using stopped

end StyleValue
