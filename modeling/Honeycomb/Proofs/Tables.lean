import Std.Data.TreeMap.Lemmas

/-!
# Tables made from lists

* `getElem?_foldl_insertIfNew` — when entries are only added under new keys, the first entry of
  each key stays.
* `getElem?_insertMany_of_mem` — when all keys differ, every entry stays.
-/

set_option autoImplicit false

namespace Honeycomb

variable {κ β γ : Type} [Ord κ] [Std.TransOrd κ] [Std.LawfulEqOrd κ] [BEq κ] [LawfulBEq κ]

/-- Of the entries under one key the first one stays. -/
theorem getElem?_foldl_insertIfNew (key : γ → κ) (value : γ → β) (xs : List γ)
    (table : Std.TreeMap κ β) (k : κ) :
    (xs.foldl (fun t x => t.insertIfNew (key x) (value x)) table)[k]? =
      table[k]?.or ((xs.find? fun x => key x == k).map value) := by
  induction xs generalizing table with
  | nil => simp
  | cons x xs ih =>
    rw [List.foldl_cons, ih, Std.TreeMap.getElem?_insertIfNew]
    by_cases hkey : key x = k
    · by_cases hknown : k ∈ table
      · simp [hkey, hknown]
      · simp [hkey, hknown]
    · simp [hkey]

/-- Entries under different keys all stay. -/
theorem getElem?_insertMany_of_mem {entries : List (κ × β)} (hkeys : (entries.map Prod.fst).Nodup)
    {entry : κ × β} (h : entry ∈ entries) {table : Std.TreeMap κ β} :
    (table.insertMany entries)[entry.1]? = some entry.2 := by
  have hdistinct : entries.Pairwise fun a b => ¬compare a.1 b.1 = .eq := by
    refine (List.pairwise_map.1 hkeys).imp fun hne heq => hne ?_
    exact Std.LawfulEqOrd.eq_of_compare heq
  exact Std.TreeMap.getElem?_insertMany_list_of_mem Std.ReflOrd.compare_self hdistinct h

end Honeycomb
