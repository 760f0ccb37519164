import FilterQuery.Proofs.Meaning.Folding
import FilterQuery.Proofs.Meaning.Forms

/-!
# What the compatible grammar adds

The two grammars look for names in two ways: a text is a name as a whole under the strict one, and
it is enough that it holds a name under the compatible one. Every rule before the names is the same
(`meaning_eq_or_name`), and what is a name as a whole is the same kind of name for holding one,
since no plain path holds a colon (`nameKind_compat`). So the compatible grammar adds meanings, but
changes none (`meaning_compat_extends`).

What a text holds is said by its parts: a path of either kind is looked for among all of them. That
some part is a plain path comes down to a single character, since a path starts with a character
that may start a name, and such a character is a path by itself (`exists_path_iff`).
-/

namespace FilterQuery

variable {x : Text}

theorem isNameStart_iff {c : Char} : isNameStart c = true ↔ c.isAlpha = true ∨ c = '_' := by
  rw [isNameStart, Bool.or_eq_true, decide_eq_true_eq]

/-- A name may be as short as the character that it starts with. -/
theorem path_singleton {c : Char} (h : isNameStart c = true) : Regex.path.Matches [c] :=
  .seq (.seq (.one h) .stop) .stop

/-- Some part of a text is a path exactly if there is an ASCII letter or an underscore in it. -/
theorem exists_path_iff :
    (∃ y, y <:+: x ∧ Regex.path.Matches y) ↔ ∃ c ∈ x, c.isAlpha = true ∨ c = '_' := by
  constructor
  · rintro ⟨y, hy, hpath⟩
    obtain ⟨c, rest, rfl, hc⟩ := exists_isNameStart_of_path hpath
    exact ⟨c, hy.subset List.mem_cons_self, isNameStart_iff.mp hc⟩
  · rintro ⟨c, hmem, hc⟩
    obtain ⟨before, after, rfl⟩ := List.append_of_mem hmem
    refine ⟨[c], ⟨before, after, ?_⟩, path_singleton (isNameStart_iff.mpr hc)⟩
    rw [List.append_assoc, List.singleton_append]

/-- A part that is a path through a relation starts with a path. -/
theorem containsPath_of_containsRelation (h : containsRelation x = true) :
    containsPath x = true := by
  obtain ⟨y, hy, hrelation⟩ := containsRelation_iff.mp h
  rw [Regex.relation, Regex.matches_seq_iff] at hrelation
  obtain ⟨source, tail, hsource, -, rfl⟩ := hrelation
  exact containsPath_iff.mpr ⟨source, (List.prefix_append source tail).isInfix.trans hy, hsource⟩

/-! ## Kinds of names -/

theorem nameKind_compat_eq_relation_iff :
    nameKind .compat x = .relation ↔ containsRelation x = true := by
  rw [nameKind]
  split
  · next h => simp only [h]
  · next h => split <;> simp [h]

theorem nameKind_compat_eq_field_iff :
    nameKind .compat x = .field ↔ containsRelation x = false ∧ containsPath x = true := by
  rw [nameKind]
  split
  · next h => simp [h]
  · next h => split <;> simp_all

theorem nameKind_compat_eq_unrecognized_iff :
    nameKind .compat x = .unrecognized ↔ containsPath x = false := by
  rw [nameKind]
  split
  · next h => simp [containsPath_of_containsRelation h]
  · next h => split <;> simp_all

/-- A text that means something under the strict grammar means the same under the compatible one.
Any other text stands for itself under both, and the compatible grammar takes it for a path through
a relation if a part of it is one, else for a field if a part of it is a plain path, and else for
nothing. A part is a plain path exactly if there is an ASCII letter or an underscore. -/
theorem meaning_compat_extends (x : Text) :
    ((meaning .strict x).1 ≠ .unrecognized → meaning .compat x = meaning .strict x) ∧
    ((meaning .strict x).1 = .unrecognized →
      let relation := ∃ y, y <:+: x ∧ Regex.relation.Matches y
      let path := ∃ y, y <:+: x ∧ Regex.path.Matches y
      let letter := ∃ c ∈ x, c.isAlpha = true ∨ c = '_'
      (meaning .strict x).2 = x ∧ (meaning .compat x).2 = x ∧
      (path ↔ letter) ∧
      ((meaning .compat x).1 = .relation ↔ relation) ∧
      ((meaning .compat x).1 = .field ↔ ¬ relation ∧ letter) ∧
      ((meaning .compat x).1 = .unrecognized ↔ ¬ relation ∧ ¬ letter)) := by
  refine ⟨meaning_compat, fun hstrict => ?_⟩
  intro relation path letter
  have hrelation : containsRelation x = true ↔ relation := containsRelation_iff
  have hcollapse : path ↔ letter := exists_path_iff
  have hletter : containsPath x = true ↔ letter := containsPath_iff.trans hcollapse
  have hname : ∀ grammar, meaning grammar x = (nameKind grammar x, x) := by
    rcases meaning_eq_or_name x with ⟨k, v, hk, hboth⟩ | hname
    · rw [hboth] at hstrict
      exact absurd hstrict hk
    · exact hname
  have hholds : relation → letter := fun h =>
    hletter.mp (containsPath_of_containsRelation (hrelation.mpr h))
  rw [hname, hname]
  refine ⟨rfl, rfl, hcollapse, ?_, ?_, ?_⟩
  · exact nameKind_compat_eq_relation_iff.trans hrelation
  · rw [nameKind_compat_eq_field_iff, hletter, ← hrelation, Bool.not_eq_true]
  · rw [nameKind_compat_eq_unrecognized_iff, ← Bool.not_eq_true, hletter]
    exact ⟨fun h => ⟨fun hr => h (hholds hr), h⟩, fun h => h.2⟩

/-- Two texts that are no names hold one, a third one holds none, and a number stays a number. -/
theorem meaning_compat_extends_of_parts :
    (meaning .compat "1.a:b.c".toList).1 = .relation ∧
    (meaning .compat "1.2.3e5".toList).1 = .field ∧
    (meaning .compat "1.2.3".toList).1 = .unrecognized ∧
    meaning .compat "1.2e5".toList = meaning .strict "1.2e5".toList := by
  have hrelation := ((meaning_compat_extends "1.a:b.c".toList).2 (by decide)).2.2.2.1
  have hfield := ((meaning_compat_extends "1.2.3e5".toList).2 (by decide)).2.2.2.2.1
  have hnothing := ((meaning_compat_extends "1.2.3".toList).2 (by decide)).2.2.2.2.2
  have hno : ∀ {x : Text}, ':' ∉ x → ¬ ∃ y, y <:+: x ∧ Regex.relation.Matches y := by
    rintro x hcolon ⟨y, hy, hmatches⟩
    exact hcolon (hy.subset (mem_of_relation hmatches))
  refine ⟨hrelation.mpr ⟨"a:b.c".toList, by decide, isRelation_iff.mp (by decide)⟩,
    hfield.mpr ⟨hno (by decide), 'e', by decide, Or.inl (by decide)⟩,
    hnothing.mpr ⟨hno (by decide), ?_⟩, (meaning_compat_extends "1.2e5".toList).1 (by decide)⟩
  rw [← exists_path_iff, ← containsPath_iff]
  decide

end FilterQuery
