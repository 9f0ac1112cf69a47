import Honeycomb.Element
import Honeycomb.Proofs.Text.Words

/-!
# Elements of the table

* `Element.isWord_symbol` — the symbols are words.
* `Element.mem_table_of_ofToken?`, `Element.mem_table_of_closest?` — what is found is in the table.
-/

set_option autoImplicit false

namespace Honeycomb.Element

theorem isWord_symbol {e : Element} (h : e ∈ table) : Text.IsWord e.symbol.toList := by
  have hne : ∀ e ∈ table, e.symbol.toList ≠ [] := by decide +kernel
  have hblanks : ∀ e ∈ table, e.symbol.toList.all (!isBlank ·) = true := by decide +kernel
  exact ⟨hne e h, by simpa using hblanks e h⟩

theorem mem_table_of_ofToken? {token : List Char} {e : Element} (h : ofToken? token = some e) :
    e ∈ table := by
  unfold ofToken? at h
  split at h
  · exact List.mem_of_find?_eq_some h
  · exact List.mem_of_find?_eq_some h

theorem mem_table_of_closest? {α : Type} [Scalar α] {mass tolerance : α} {e : Element}
    (h : closest? mass tolerance = some e) : e ∈ table := by
  -- the search never leaves the elements it goes through
  have hfold : ∀ {step : Option Element → Element → Option Element},
      (∀ best next, step best next = best ∨ step best next = some next) →
      ∀ (near : List Element) (best : Option Element), near.foldl step best = some e →
        best = some e ∨ e ∈ near := by
    intro step hstep near
    induction near with
    | nil => exact fun best hbest => .inl hbest
    | cons next near ih =>
      intro best hbest
      rcases ih (step best next) hbest with hfound | hfound
      · rcases hstep best next with hold | hnew
        · exact .inl (hold ▸ hfound)
        · rw [hnew, Option.some_inj] at hfound
          exact .inr (hfound ▸ List.mem_cons_self)
      · exact .inr (List.mem_cons_of_mem next hfound)
  unfold closest? at h
  have hnear := hfold (fun best next => ?_) _ _ h
  · exact (List.mem_filter.1 (hnear.resolve_left (by simp))).1
  · cases best with
    | none => exact .inr rfl
    | some b =>
      dsimp only
      split
      · exact .inl rfl
      · exact .inr rfl

end Honeycomb.Element
