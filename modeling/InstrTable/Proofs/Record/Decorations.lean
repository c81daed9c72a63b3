import InstrTable.Record.Reader

/-!
The decorations of an operand list: braces that hold no others. Every text is divided in one
way into the decorations that stand in it and what is left without them.
-/

namespace InstrTable

namespace Record

/-- Whether no brace stands in a text. -/
def Braceless (cs : List Char) : Prop := '{' ∉ cs ∧ '}' ∉ cs

instance (cs : List Char) : Decidable (Braceless cs) := inferInstanceAs (Decidable (_ ∧ _))

/-- Whether no braces of a text hold a text without braces. -/
def Undecorated (cs : List Char) : Prop :=
  ∀ front inner back, Braceless inner → cs ≠ front ++ '{' :: (inner ++ '}' :: back)

/-- `Decorated cs kept taken`: the braces in `cs` that hold no others hold the texts `taken`, and
without them `kept` is left. -/
inductive Decorated : (cs kept : List Char) → (taken : List (List Char)) → Prop where
  | plain {cs : List Char} (bare : Undecorated cs) : Decorated cs cs []
  | braces {front inner back kept : List Char} {taken : List (List Char)}
      (bare : Undecorated front) (innermost : Braceless inner) (next : Decorated back kept taken) :
      Decorated (front ++ '{' :: (inner ++ '}' :: back)) (front ++ kept) (inner :: taken)

variable {c : Char} {cs front inner rest kept : List Char} {taken : List (List Char)}

@[simp] theorem braceless_nil : Braceless [] := by simp [Braceless]

@[simp] theorem braceless_cons :
    Braceless (c :: cs) ↔ (c ≠ '{' ∧ c ≠ '}') ∧ Braceless cs := by
  simp [Braceless, and_and_and_comm, eq_comm]

theorem Undecorated.tail (h : Undecorated (c :: cs)) : Undecorated cs := by
  rintro front inner back hinner rfl
  exact h (c :: front) inner back hinner rfl

theorem takeDecoration?_eq_some_iff :
    takeDecoration? cs = some (inner, rest) ↔ cs = inner ++ '}' :: rest ∧ Braceless inner := by
  induction cs generalizing inner rest with
  | nil => simp [takeDecoration?]
  | cons c cs ih =>
      rw [takeDecoration?]
      by_cases hclose : c = '}'
      · cases inner with
        | nil => simp [hclose]
        | cons d inner => simp +contextual [hclose, eq_comm]
      · by_cases hopen : c = '{'
        · cases inner with
          | nil => simp [hopen]
          | cons d inner => simp +contextual [hopen, eq_comm]
        · cases inner with
          | nil => simp [hclose, hopen]
          | cons d inner =>
              simp only [hclose, hopen, if_false, Option.map_eq_some_iff, Prod.exists, ih,
                Prod.mk.injEq, List.cons.injEq, braceless_cons, List.cons_append]
              constructor
              · rintro ⟨_, _, ⟨rfl, hinner⟩, ⟨rfl, rfl⟩, rfl⟩
                exact ⟨⟨rfl, rfl⟩, ⟨hopen, hclose⟩, hinner⟩
              · rintro ⟨⟨rfl, rfl⟩, -, hinner⟩
                exact ⟨inner, rest, ⟨rfl, hinner⟩, ⟨rfl, rfl⟩, rfl⟩

/-- A text that is divided at a character in front of it. -/
theorem Decorated.cons (h : Decorated cs kept taken)
    (hc : ∀ inner rest, Braceless inner → c :: cs ≠ '{' :: (inner ++ '}' :: rest)) :
    Decorated (c :: cs) (c :: kept) taken := by
  have hcons {front cs' : List Char} (hfront : Undecorated front) (hcs : cs = front ++ cs') :
      Undecorated (c :: front) := by
    rintro first inner back hinner heq
    cases first with
    | nil =>
        obtain ⟨rfl, rfl⟩ := List.cons.inj heq
        exact hc inner (back ++ cs') hinner (by rw [hcs]; simp)
    | cons d first =>
        obtain ⟨rfl, rfl⟩ := List.cons.inj heq
        exact hfront first inner back hinner rfl
  cases h with
  | plain bare => exact .plain (hcons bare (List.append_nil _).symm)
  | braces bare innermost next => exact .braces (hcons bare rfl) innermost next

/-- A brace behind a text without braces and the brace that closes it stands behind both. -/
theorem Braceless.split {front back : List Char} (h : Braceless inner)
    (heq : inner ++ '}' :: rest = front ++ '{' :: back) :
    ∃ between, front = inner ++ '}' :: between ∧ rest = between ++ '{' :: back := by
  induction inner generalizing front with
  | nil =>
      cases front with
      | nil => simp at heq
      | cons c front =>
          obtain ⟨rfl, rfl⟩ := List.cons.inj heq
          exact ⟨front, rfl, rfl⟩
  | cons d inner ih =>
      obtain ⟨⟨hopen, -⟩, hinner⟩ := braceless_cons.mp h
      cases front with
      | nil => exact absurd (List.cons.inj heq).1 hopen
      | cons c front =>
          obtain ⟨rfl, htail⟩ := List.cons.inj heq
          obtain ⟨between, rfl, hrest⟩ := ih hinner htail
          exact ⟨between, rfl, hrest⟩

/-- Every text without braces that stands in braces is taken, wherever that is. -/
theorem mem_takeDecorations (hinner : Braceless inner) (h : '{' :: (inner ++ ['}']) <:+: cs) :
    inner ∈ (takeDecorations cs).2 := by
  fun_induction takeDecorations cs with
  | case1 => simp at h
  | case2 c cs inner' rest hfound _ kept taken htaken ih =>
      obtain ⟨rfl, hfound⟩ : c = '{' ∧ takeDecoration? cs = some (inner', rest) := by
        simpa [Option.ite_none_right_eq_some] using hfound
      obtain ⟨hcs, hinner'⟩ := takeDecoration?_eq_some_iff.mp hfound
      rcases List.infix_cons_iff.mp h with ⟨back, hfront⟩ | ⟨front, back, hlater⟩
      · have hsame : takeDecoration? cs = some (inner, back) :=
          takeDecoration?_eq_some_iff.mpr ⟨by simpa using (List.cons.inj hfront).2.symm, hinner⟩
        obtain ⟨rfl, -⟩ := Prod.mk.inj (Option.some.inj (hfound.symm.trans hsame))
        exact List.mem_cons_self
      · have heq : inner' ++ '}' :: rest = front ++ '{' :: (inner ++ '}' :: back) := by
          rw [← hcs, ← hlater]
          simp
        obtain ⟨between, -, hrest⟩ := hinner'.split heq
        have hin := ih ⟨between, back, by simp [hrest]⟩
        rw [htaken] at hin
        exact List.mem_cons_of_mem _ hin
  | case3 c cs hnone kept taken htaken ih =>
      rcases List.infix_cons_iff.mp h with ⟨back, hfront⟩ | hlater
      · obtain ⟨rfl, hcs⟩ := List.cons.inj hfront
        have hsome : takeDecoration? cs = some (inner, back) :=
          takeDecoration?_eq_some_iff.mpr ⟨by simpa using hcs.symm, hinner⟩
        simp [hsome] at hnone
      · have hin := ih hlater
        rwa [htaken] at hin

end Record

end InstrTable
