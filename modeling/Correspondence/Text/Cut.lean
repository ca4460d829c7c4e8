/-!
# Cutting texts

A text is cut at a character, or freed from a text that it starts with.
-/

namespace Correspondence.Text

/-- The parts before and after the first `c`. -/
def cutFirst? (c : Char) : List Char → Option (List Char × List Char)
  | [] => none
  | d :: text =>
    if d = c then some ([], text) else (cutFirst? c text).map fun (before, after) => (d :: before, after)

/-- The parts before and after the last `c`. -/
def cutLast? (c : Char) : List Char → Option (List Char × List Char)
  | [] => none
  | d :: text =>
    match cutLast? c text with
    | some (before, after) => some (d :: before, after)
    | none => if d = c then some ([], text) else none

/-- The pieces between the occurrences of `c`, of which there is at least one. -/
def pieces (c : Char) : List Char → List (List Char)
  | [] => [[]]
  | d :: text =>
    if d = c then [] :: pieces c text
    else match pieces c text with
      | [] => [[d]]
      | piece :: rest => (d :: piece) :: rest

/-- What follows `start` in a text that starts with it. -/
def stripStart? : (start : List Char) → List Char → Option (List Char)
  | [], text => some text
  | _ :: _, [] => none
  | c :: start, d :: text => if c = d then stripStart? start text else none

theorem cutFirst?_eq_some_iff {c : Char} {text before after : List Char} :
    cutFirst? c text = some (before, after) ↔ c ∉ before ∧ text = before ++ c :: after := by
  induction text generalizing before with
  | nil => simp [cutFirst?]
  | cons d text ih =>
    by_cases h : d = c
    · subst h
      cases before with
      | nil => simp [cutFirst?]
      | cons b before =>
        simp only [cutFirst?, if_true, List.cons_append, List.cons.injEq, Option.some.injEq,
          Prod.mk.injEq, List.mem_cons, not_or]
        constructor
        · rintro ⟨h, -⟩; simp at h
        · rintro ⟨⟨h, -⟩, h', -⟩; exact absurd h' h
    · cases before with
      | nil =>
        simp [cutFirst?, h]
      | cons b before =>
        simp only [cutFirst?, h, if_false, Option.map_eq_some_iff, Prod.exists, Prod.mk.injEq,
          List.cons.injEq, List.cons_append, List.mem_cons, not_or]
        constructor
        · rintro ⟨p, q, hpq, ⟨rfl, rfl⟩, rfl⟩
          obtain ⟨hp, rfl⟩ := ih.mp hpq
          exact ⟨⟨fun e => h e.symm, hp⟩, rfl, rfl⟩
        · rintro ⟨⟨-, hb⟩, rfl, rfl⟩
          exact ⟨before, after, ih.mpr ⟨hb, rfl⟩, ⟨rfl, rfl⟩, rfl⟩

theorem stripStart?_eq_some_iff {start text rest : List Char} :
    stripStart? start text = some rest ↔ text = start ++ rest := by
  induction start generalizing text with
  | nil => simp [stripStart?, eq_comm]
  | cons c start ih =>
    cases text with
    | nil => simp [stripStart?]
    | cons d text =>
      by_cases h : c = d
      · simp [stripStart?, h, ih]
      · simp [stripStart?, h, Ne.symm h]

end Correspondence.Text
