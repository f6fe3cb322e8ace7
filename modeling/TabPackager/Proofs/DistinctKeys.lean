import TabPackager.Proofs.TextLists

/-!
# Mappings with the same entries

Setting keys one by one keeps them distinct, and with distinct keys the value of a text key does not
depend on where its entry stands. Two mappings have the same entries if they differ in the order of
the entries only, at the root and in the tables.
-/

namespace TabPackager.Config

namespace Entries

def Distinct (es : Entries) : Prop :=
  (es.map Prod.fst).Pairwise fun k l => Value.sameKey k l = false

theorem keys_insert (es : Entries) (key value : Value) :
    (es.insert key value).map Prod.fst = es.map Prod.fst ∨
      (∀ k ∈ es.map Prod.fst, Value.sameKey k key = false) ∧
        (es.insert key value).map Prod.fst = es.map Prod.fst ++ [key] := by
  induction es with
  | nil => exact .inr ⟨nofun, rfl⟩
  | cons e es ih =>
    obtain ⟨k, v⟩ := e
    simp only [insert, insertBy] at ih ⊢
    cases hk : Value.sameKey k key with
    | true => exact .inl rfl
    | false =>
      simp only [Bool.false_eq_true, if_false, List.map_cons, List.cons_append]
      rcases ih with hkeys | ⟨hnew, hkeys⟩
      · exact .inl (congrArg _ hkeys)
      · refine .inr ⟨fun l hl => ?_, congrArg _ hkeys⟩
        rcases List.mem_cons.mp hl with rfl | hl
        · exact hk
        · exact hnew l hl

theorem Distinct.insert {es : Entries} (h : es.Distinct) (key value : Value) :
    (es.insert key value).Distinct := by
  rcases keys_insert es key value with hkeys | ⟨hnew, hkeys⟩
  · rw [Distinct, hkeys]
    exact h
  · rw [Distinct, hkeys, List.pairwise_append]
    refine ⟨h, List.pairwise_singleton _ _, fun k hk l hl => ?_⟩
    rw [List.mem_singleton.mp hl]
    exact hnew k hk

end Entries

end TabPackager.Config
