import Mathlib
import Honeycomb.Proofs.Selection.Assignments

/-!
# Regions and their arguments

* `Field`, `fields` — the values of a region, each with the keys that it can be given under.
* `Argument.Replaces` — an argument that can be given in place of a value.
* `Fits` — each argument is for a field of its own. `HasValues` — the fields have the given values,
  and the standard ones where none is given.
* `take_cases` — what one step does to the arguments. `TakesAll` — the steps of a whole region;
  `refine_eq_ok_iff` — these are what a region is made by.
* `fits_of_takesAll`, `hasValues_of_takesAll`, `exists_takesAll` — all arguments are used up exactly
  if they fit, by induction on the fields.

Principal result: `region_arguments_exact` — a region is made exactly of a list of assignments that
fit its shape, with the values that these give, and their order does not count.
-/

set_option autoImplicit false

namespace Honeycomb.Selection

/-! ## Fields -/

/-- A value of a region, and the keys that it can be given under. -/
structure Field where
  keys : List String
  value : Argument

/-- The values of a region. The center of a sphere has a short key, too. -/
def fields : Region Double → List Field
  | .sphere center radius => [⟨["center", "c"], .point center⟩, ⟨["r"], .number radius⟩]
  | .cylinder bottom top radius =>
    [⟨["p1"], .point bottom⟩, ⟨["p2"], .point top⟩, ⟨["r"], .number radius⟩]
  | .parallelepiped corner u v w =>
    [⟨["o"], .point corner⟩, ⟨["u"], .point u⟩, ⟨["v"], .point v⟩, ⟨["w"], .point w⟩]
  | .cuboid box => [⟨["pmin"], .point box.low⟩, ⟨["pmax"], .point box.high⟩]
  | .ellipsoid center a b c =>
    [⟨["center"], .point center⟩, ⟨["a"], .number a⟩, ⟨["b"], .number b⟩, ⟨["c"], .number c⟩]

/-- An argument that can be given in place of a value: a point for a point, and a number for a
length if it is not negative, which excludes what is not a number. -/
inductive Argument.Replaces : Argument → Argument → Prop
  | point (p q : Vec3 Double) : Replaces (.point p) (.point q)
  | number {a : Double} (b : Double) : 0 ≤ a → Replaces (.number a) (.number b)

/-- **Arguments fit some fields**: their keys are different, each is the key of a field whose value
the argument can replace, and no field is given twice. -/
structure Fits (fields : List Field) (args : Arguments) : Prop where
  nodup : (args.map (·.1)).Nodup
  belongs : ∀ given ∈ args, ∃ field ∈ fields,
    given.1 ∈ field.keys ∧ given.2.Replaces field.value
  single : ∀ field ∈ fields, ∀ given ∈ args, ∀ given' ∈ args,
    given.1 ∈ field.keys → given'.1 ∈ field.keys → given = given'

/-- The value of a field: the one that is given under a key of it, or else the standard one. -/
structure IsValue (args : Arguments) (standard field : Field) : Prop where
  keys_eq : field.keys = standard.keys
  value : (∃ given ∈ args, given.1 ∈ standard.keys ∧ field.value = given.2) ∨
    (∀ given ∈ args, given.1 ∉ standard.keys) ∧ field.value = standard.value

/-- **A region has exactly the given values**, and the standard values of its shape for all that is
not given. -/
def HasValues (region : Region Double) (args : Arguments) : Prop :=
  List.Forall₂ (IsValue args) (fields region.shape.standard) (fields region)

/-- No key is for two values of a region. -/
theorem pairwise_disjoint_fields (region : Region Double) :
    (fields region).Pairwise fun field field' => field.keys.Disjoint field'.keys := by
  cases region <;> simp [fields]

/-- The keys of regions are made of letters and digits. -/
theorem isKey_of_mem_fields (region : Region Double) :
    ∀ field ∈ fields region, ∀ key ∈ field.keys, IsKey key := by
  cases region <;> simp [fields, IsKey]

/-- The values tell the region of a shape. -/
theorem fields_injective {region region' : Region Double} (hshape : region.shape = region'.shape)
    (h : fields region = fields region') : region = region' := by
  cases region with
  | sphere =>
    cases region' with
    | sphere => simpa [fields] using h
    | _ => cases hshape
  | cylinder =>
    cases region' with
    | cylinder => simpa [fields] using h
    | _ => cases hshape
  | parallelepiped =>
    cases region' with
    | parallelepiped => simpa [fields] using h
    | _ => cases hshape
  | cuboid box =>
    cases region' with
    | cuboid box' =>
      obtain ⟨low, high⟩ := box
      obtain ⟨low', high'⟩ := box'
      simpa [fields] using h
    | _ => cases hshape
  | ellipsoid =>
    cases region' with
    | ellipsoid => simpa [fields] using h
    | _ => cases hshape

/-! ## Steps -/

section

variable {args rest : Arguments} {keys : List String} {standard a : Argument}

/-- **What taking a value does**: none is given, and it stays as it is; or one of its kind is given,
and the other arguments are left. -/
inductive Takes (args : Arguments) (keys : List String) (standard : Argument) :
    Argument → Arguments → Prop
  | standard : args.take keys = none → Takes args keys standard standard args
  | given {a : Argument} {rest : Arguments} :
    args.take keys = some (a, rest) → a.Replaces standard → Takes args keys standard a rest

theorem takePoint_eq_ok_iff {p q : Vec3 Double} :
    args.takePoint keys p = .ok (q, rest) ↔ Takes args keys (.point p) (.point q) rest := by
  unfold Arguments.takePoint
  constructor
  · intro h
    split at h
    · next htake =>
      cases h
      exact .standard htake
    · next htake =>
      cases h
      exact .given htake (.point q p)
    · cases h
  · intro h
    cases h with
    | standard htake => rw [htake]
    | given htake _ => rw [htake]

theorem takeLength_eq_ok_iff {key : String} {b c : Double} :
    args.takeLength key b = .ok (c, rest) ↔ Takes args [key] (.number b) (.number c) rest := by
  unfold Arguments.takeLength
  constructor
  · intro h
    split at h
    · next htake =>
      cases h
      exact .standard htake
    · next htake =>
      split at h
      · next hle =>
        cases h
        exact .given htake (.number b hle)
      · cases h
    · cases h
  · intro h
    cases h with
    | standard htake => rw [htake]
    | given htake hreplaces =>
      cases hreplaces with | number _ hle =>
      rw [htake]
      exact if_pos hle

/-- The argument under a key, and the other ones. -/
theorem perm_cons_filter {key : String} (hnodup : (args.map (·.1)).Nodup)
    (h : args.lookup key = some a) : args.Perm ((key, a) :: args.filter (·.1 != key)) := by
  obtain ⟨before, after, rfl, -⟩ := List.lookup_eq_some_iff.1 h
  have hperm : (before ++ (key, a) :: after).Perm ((key, a) :: (before ++ after)) :=
    List.perm_middle
  have hothers : ∀ given ∈ before ++ after, (given.1 != key) = true := by
    intro given hgiven
    rw [bne_iff_ne]
    intro hkey
    have hkeys := (hperm.map (·.1)).nodup_iff.1 hnodup
    rw [List.map_cons, List.nodup_cons] at hkeys
    exact hkeys.1 (List.mem_map.2 ⟨given, hgiven, hkey⟩)
  have hfilter : (before ++ (key, a) :: after).filter (·.1 != key) = before ++ after := by
    obtain ⟨hbefore, hafter⟩ := List.forall_mem_append.1 hothers
    rw [List.filter_append, List.filter_eq_self.2 hbefore, List.filter_cons_of_neg (by simp),
      List.filter_eq_self.2 hafter]
  rwa [hfilter]

/-- **What one step does to the arguments**: none of the keys is given, or the argument under one of
them is taken out. -/
theorem take_cases (keys : List String) (hnodup : (args.map (·.1)).Nodup) :
    (args.take keys = none ∧ ∀ given ∈ args, given.1 ∉ keys) ∨
      ∃ key ∈ keys, ∃ a rest, args.take keys = some (a, rest) ∧ args.Perm ((key, a) :: rest) := by
  induction keys with
  | nil => exact .inl ⟨rfl, by simp⟩
  | cons key keys ih =>
    unfold Arguments.take
    cases hlookup : args.lookup key with
    | some a =>
      exact .inr ⟨key, List.mem_cons_self, a, _, rfl, perm_cons_filter hnodup hlookup⟩
    | none =>
      dsimp only
      have hkey := Arguments.lookup_eq_none_iff.1 hlookup
      rcases ih with ⟨htake, hkeys⟩ | ⟨key', hkey', a, rest, htake, hperm⟩
      · refine .inl ⟨htake, fun given hgiven hmem => ?_⟩
        rcases List.mem_cons.1 hmem with rfl | hmem
        · exact hkey (List.mem_map_of_mem hgiven)
        · exact hkeys given hgiven hmem
      · exact .inr ⟨key', List.mem_cons_of_mem _ hkey', a, rest, htake, hperm⟩

end

/-! ## All steps -/

/-- **The steps of a region**: each field takes its value from the arguments that are left. -/
inductive TakesAll : List Field → Arguments → List Field → Arguments → Prop
  | nil {args : Arguments} : TakesAll [] args [] args
  | cons {keys : List String} {standard a : Argument} {args more rest : Arguments}
    {fields fields' : List Field} :
    Takes args keys standard a more → TakesAll fields more fields' rest →
      TakesAll (⟨keys, standard⟩ :: fields) args (⟨keys, a⟩ :: fields') rest

/-- **Regions are made by these steps**, and keep their shape. -/
theorem refine_eq_ok_iff {region region' : Region Double} {args rest : Arguments} :
    refine region args = .ok (region', rest) ↔
      region'.shape = region.shape ∧ TakesAll (fields region) args (fields region') rest := by
  cases region with
  | sphere =>
    simp only [refine, bind_eq_ok_iff, Prod.exists, takePoint_eq_ok_iff, takeLength_eq_ok_iff]
    constructor
    · rintro ⟨_, _, hcenter, _, _, hradius, h⟩
      cases h
      exact ⟨rfl, .cons hcenter (.cons hradius .nil)⟩
    · rintro ⟨hshape, h⟩
      cases region' with
      | sphere =>
        cases h with | cons hcenter h =>
        cases h with | cons hradius h =>
        cases h
        exact ⟨_, _, hcenter, _, _, hradius, rfl⟩
      | _ => cases hshape
  | cylinder =>
    simp only [refine, bind_eq_ok_iff, Prod.exists, takePoint_eq_ok_iff, takeLength_eq_ok_iff]
    constructor
    · rintro ⟨_, _, hbottom, _, _, htop, _, _, hradius, h⟩
      cases h
      exact ⟨rfl, .cons hbottom (.cons htop (.cons hradius .nil))⟩
    · rintro ⟨hshape, h⟩
      cases region' with
      | cylinder =>
        cases h with | cons hbottom h =>
        cases h with | cons htop h =>
        cases h with | cons hradius h =>
        cases h
        exact ⟨_, _, hbottom, _, _, htop, _, _, hradius, rfl⟩
      | _ => cases hshape
  | parallelepiped =>
    simp only [refine, bind_eq_ok_iff, Prod.exists, takePoint_eq_ok_iff]
    constructor
    · rintro ⟨_, _, hcorner, _, _, hu, _, _, hv, _, _, hw, h⟩
      cases h
      exact ⟨rfl, .cons hcorner (.cons hu (.cons hv (.cons hw .nil)))⟩
    · rintro ⟨hshape, h⟩
      cases region' with
      | parallelepiped =>
        cases h with | cons hcorner h =>
        cases h with | cons hu h =>
        cases h with | cons hv h =>
        cases h with | cons hw h =>
        cases h
        exact ⟨_, _, hcorner, _, _, hu, _, _, hv, _, _, hw, rfl⟩
      | _ => cases hshape
  | cuboid =>
    simp only [refine, bind_eq_ok_iff, Prod.exists, takePoint_eq_ok_iff]
    constructor
    · rintro ⟨_, _, hlow, _, _, hhigh, h⟩
      cases h
      exact ⟨rfl, .cons hlow (.cons hhigh .nil)⟩
    · rintro ⟨hshape, h⟩
      cases region' with
      | cuboid =>
        cases h with | cons hlow h =>
        cases h with | cons hhigh h =>
        cases h
        exact ⟨_, _, hlow, _, _, hhigh, rfl⟩
      | _ => cases hshape
  | ellipsoid =>
    simp only [refine, bind_eq_ok_iff, Prod.exists, takePoint_eq_ok_iff, takeLength_eq_ok_iff]
    constructor
    · rintro ⟨_, _, hcenter, _, _, ha, _, _, hb, _, _, hc, h⟩
      cases h
      exact ⟨rfl, .cons hcenter (.cons ha (.cons hb (.cons hc .nil)))⟩
    · rintro ⟨hshape, h⟩
      cases region' with
      | ellipsoid =>
        cases h with | cons hcenter h =>
        cases h with | cons ha h =>
        cases h with | cons hb h =>
        cases h with | cons hc h =>
        cases h
        exact ⟨_, _, hcenter, _, _, ha, _, _, hb, _, _, hc, rfl⟩
      | _ => cases hshape

/-! ## Arguments that fit -/

section

variable {f g g' : Field} {fs gs : List Field} {args args' rest : Arguments} {key : String}
  {a : Argument}

theorem Fits.perm (hperm : args.Perm args') (h : Fits fs args) : Fits fs args' where
  nodup := (hperm.map (·.1)).nodup_iff.1 h.nodup
  belongs given hgiven := h.belongs given (hperm.mem_iff.2 hgiven)
  single field hfield given hgiven given' hgiven' :=
    h.single field hfield given (hperm.mem_iff.2 hgiven) given' (hperm.mem_iff.2 hgiven')

/-- A field that is not given does not count. -/
theorem fits_cons_iff_of_notMem (hkeys : ∀ given ∈ args, given.1 ∉ f.keys) :
    Fits (f :: fs) args ↔ Fits fs args := by
  constructor
  · intro h
    refine ⟨h.nodup, fun given hgiven => ?_, fun field hfield =>
      h.single field (List.mem_cons_of_mem f hfield)⟩
    obtain ⟨field, hfield, hkey, hreplaces⟩ := h.belongs given hgiven
    rcases List.mem_cons.1 hfield with rfl | hfield
    · exact absurd hkey (hkeys given hgiven)
    · exact ⟨field, hfield, hkey, hreplaces⟩
  · intro h
    refine ⟨h.nodup, fun given hgiven => ?_, List.forall_mem_cons.2 ⟨?_, h.single⟩⟩
    · obtain ⟨field, hfield, hkey⟩ := h.belongs given hgiven
      exact ⟨field, List.mem_cons_of_mem f hfield, hkey⟩
    · intro given hgiven given' _ hkey _
      exact absurd hkey (hkeys given hgiven)

/-- **A field that is given takes one argument**, and the others have to be for the other fields. -/
theorem fits_cons_iff (hnodup : (args.map (·.1)).Nodup) (hperm : args.Perm ((key, a) :: rest))
    (hkey : key ∈ f.keys) (hdisjoint : ∀ f' ∈ fs, f.keys.Disjoint f'.keys) :
    Fits (f :: fs) args ↔ a.Replaces f.value ∧ Fits fs rest := by
  obtain ⟨hnew, hrest⟩ : key ∉ rest.map (·.1) ∧ (rest.map (·.1)).Nodup :=
    List.nodup_cons.1 ((hperm.map (·.1)).nodup_iff.1 hnodup)
  constructor
  · intro h
    have h := h.perm hperm
    refine ⟨?_, hrest, fun given hgiven => ?_, fun field hfield given hgiven given' hgiven' =>
      h.single field (List.mem_cons_of_mem f hfield) given (List.mem_cons_of_mem _ hgiven) given'
        (List.mem_cons_of_mem _ hgiven')⟩
    · obtain ⟨field, hfield, hmem, hreplaces⟩ := h.belongs _ List.mem_cons_self
      rcases List.mem_cons.1 hfield with rfl | hfield
      · exact hreplaces
      · exact absurd hmem (hdisjoint field hfield hkey)
    · obtain ⟨field, hfield, hmem, hreplaces⟩ := h.belongs given (List.mem_cons_of_mem _ hgiven)
      rcases List.mem_cons.1 hfield with rfl | hfield
      · obtain rfl := h.single field List.mem_cons_self given (List.mem_cons_of_mem _ hgiven)
          (key, a) List.mem_cons_self hmem hkey
        exact absurd (List.mem_map_of_mem hgiven) hnew
      · exact ⟨field, hfield, hmem, hreplaces⟩
  · rintro ⟨hreplaces, h⟩
    -- the arguments that are left are for the other fields
    have hothers : ∀ given ∈ rest, given.1 ∉ f.keys := by
      intro given hgiven hmem
      obtain ⟨field, hfield, hmem', -⟩ := h.belongs given hgiven
      exact hdisjoint field hfield hmem hmem'
    refine Fits.perm hperm.symm ⟨List.nodup_cons.2 ⟨hnew, hrest⟩, ?_, ?_⟩
    · refine List.forall_mem_cons.2 ⟨⟨f, List.mem_cons_self, hkey, hreplaces⟩, ?_⟩
      intro given hgiven
      obtain ⟨field, hfield, hmem⟩ := h.belongs given hgiven
      exact ⟨field, List.mem_cons_of_mem f hfield, hmem⟩
    · intro field hfield given hgiven given' hgiven' hmem hmem'
      rcases List.mem_cons.1 hfield with rfl | hfield
      · have honly : ∀ given ∈ (key, a) :: rest, given.1 ∈ field.keys → given = (key, a) :=
          List.forall_mem_cons.2 ⟨fun _ => rfl, fun given hgiven hmem =>
            absurd hmem (hothers given hgiven)⟩
        rw [honly given hgiven hmem, honly given' hgiven' hmem']
      · have hleft : ∀ given ∈ (key, a) :: rest, given.1 ∈ field.keys → given ∈ rest :=
          List.forall_mem_cons.2 ⟨fun hmem => absurd hmem (hdisjoint field hfield hkey),
            fun _ hgiven _ => hgiven⟩
        exact h.single field hfield given (hleft given hgiven hmem) given'
          (hleft given' hgiven' hmem') hmem hmem'

theorem IsValue.perm (hperm : args.Perm args') (h : IsValue args f g) : IsValue args' f g where
  keys_eq := h.keys_eq
  value := by
    simpa only [hperm.mem_iff] using h.value

/-- An argument for another field does not count. -/
theorem IsValue.of_perm_cons (hperm : args.Perm ((key, a) :: rest)) (hkey : key ∉ f.keys)
    (h : IsValue rest f g) : IsValue args f g := by
  refine IsValue.perm hperm.symm ⟨h.keys_eq, ?_⟩
  rcases h.value with ⟨given, hgiven, hmem, hvalue⟩ | ⟨hnone, hvalue⟩
  · exact .inl ⟨given, List.mem_cons_of_mem _ hgiven, hmem, hvalue⟩
  · exact .inr ⟨List.forall_mem_cons.2 ⟨hkey, hnone⟩, hvalue⟩

/-- Arguments that fit give a field one value. -/
theorem IsValue.unique (hfits : Fits fs args) (hf : f ∈ fs) (h : IsValue args f g)
    (h' : IsValue args f g') : g = g' := by
  obtain ⟨keys, value⟩ := g
  obtain ⟨keys', value'⟩ := g'
  obtain rfl : keys = keys' := h.keys_eq.trans h'.keys_eq.symm
  congr 1
  rcases h.value with ⟨given, hgiven, hmem, hvalue⟩ | ⟨hnone, hvalue⟩
  · rcases h'.value with ⟨given', hgiven', hmem', hvalue'⟩ | ⟨hnone', -⟩
    · obtain rfl := hfits.single f hf given hgiven given' hgiven' hmem hmem'
      exact hvalue.trans hvalue'.symm
    · exact absurd hmem (hnone' given hgiven)
  · rcases h'.value with ⟨given', hgiven', hmem', -⟩ | ⟨-, hvalue'⟩
    · exact absurd hmem' (hnone given' hgiven')
    · exact hvalue.trans hvalue'.symm

/-- **Arguments that are used up fit the fields**, which get the values that are given. -/
theorem fits_of_takesAll (hdisjoint : fs.Pairwise fun f f' => f.keys.Disjoint f'.keys)
    (hnodup : (args.map (·.1)).Nodup) (h : TakesAll fs args gs []) :
    Fits fs args ∧ List.Forall₂ (IsValue args) fs gs := by
  generalize hrest : [] = rest at h
  -- along the fields; each step leaves arguments that still have different keys
  induction h with
  | nil =>
    subst hrest
    exact ⟨⟨hnodup, by simp, by simp⟩, .nil⟩
  | @cons keys standard a args more rest fs gs htake _ ih =>
    obtain ⟨hfirst, hothers⟩ := List.pairwise_cons.1 hdisjoint
    rcases take_cases keys hnodup with ⟨hnone, hkeys⟩ | ⟨key, hkey, a', more', hsome, hperm⟩
    · cases htake with
      | given hsome _ =>
        rw [hnone] at hsome
        cases hsome
      | standard _ =>
        obtain ⟨hfits, hvalues⟩ := ih hothers hnodup hrest
        exact ⟨(fits_cons_iff_of_notMem hkeys).2 hfits, .cons ⟨rfl, .inr ⟨hkeys, rfl⟩⟩ hvalues⟩
    · cases htake with
      | standard hnone =>
        rw [hnone] at hsome
        cases hsome
      | given hsome' hreplaces =>
        cases hsome.symm.trans hsome'
        have hmore := List.nodup_cons.1 ((hperm.map (·.1)).nodup_iff.1 hnodup)
        obtain ⟨hfits, hvalues⟩ := ih hothers hmore.2 hrest
        refine ⟨(fits_cons_iff hnodup hperm hkey hfirst).2 ⟨hreplaces, hfits⟩, .cons ⟨rfl, ?_⟩ ?_⟩
        · exact .inl ⟨_, hperm.mem_iff.2 List.mem_cons_self, hkey, rfl⟩
        -- the other fields do not see the argument that was taken out
        · refine ((List.forall₂_and_left _ _).2 ⟨hfirst, hvalues⟩).imp fun f g h => ?_
          exact h.2.of_perm_cons hperm fun hmem => h.1 hkey hmem

/-- **Arguments that fit are used up.** -/
theorem exists_takesAll (hdisjoint : fs.Pairwise fun f f' => f.keys.Disjoint f'.keys)
    (h : Fits fs args) : ∃ gs, TakesAll fs args gs [] := by
  induction fs generalizing args with
  | nil =>
    have hargs : args = [] := by
      refine List.eq_nil_iff_forall_not_mem.2 fun given hgiven => ?_
      obtain ⟨field, hfield, -⟩ := h.belongs given hgiven
      cases hfield
    rw [hargs]
    exact ⟨[], .nil⟩
  | cons f fs ih =>
    obtain ⟨hfirst, hothers⟩ := List.pairwise_cons.1 hdisjoint
    rcases take_cases f.keys h.nodup with ⟨hnone, hkeys⟩ | ⟨key, hkey, a, rest, hsome, hperm⟩
    · obtain ⟨gs, hgs⟩ := ih hothers ((fits_cons_iff_of_notMem hkeys).1 h)
      exact ⟨_, .cons (.standard hnone) hgs⟩
    · obtain ⟨hreplaces, hfits⟩ := (fits_cons_iff h.nodup hperm hkey hfirst).1 h
      obtain ⟨gs, hgs⟩ := ih hothers hfits
      exact ⟨_, .cons (.given hsome hreplaces) hgs⟩

end

/-! ## Regions -/

theorem finish_eq_ok_iff {args : Arguments} {done : Unit} :
    args.finish = .ok done ↔ args = [] := by
  unfold Arguments.finish
  cases args with
  | nil => simp
  | cons given args => simp

theorem ofName?_eq_some_iff {name : String} {shape : Shape} :
    Shape.ofName? name = some shape ↔ name = shape.name := by
  constructor
  · intro h
    have hname := List.find?_some (p := fun shape : Shape => shape.name == name) h
    exact (beq_iff_eq.1 hname).symm
  · rintro rfl
    exact Shape.ofName?_name shape

section

variable {shape : Shape} {region region' : Region Double} {args args' rest : Arguments}
  {gs : List Field}

theorem region_eq_ok_iff_takesAll : args.region shape = .ok region ↔
    region.shape = shape ∧ TakesAll (fields shape.standard) args (fields region) [] := by
  simp only [Arguments.region, bind_eq_ok_iff, Prod.exists, refine_eq_ok_iff, finish_eq_ok_iff,
    Shape.shape_standard]
  constructor
  · rintro ⟨region', rest, ⟨hshape, h⟩, _, rfl, heq⟩
    cases heq
    exact ⟨hshape, h⟩
  · rintro ⟨hshape, h⟩
    exact ⟨region, [], ⟨hshape, h⟩, (), rfl, rfl⟩

theorem TakesAll.exists_point {keys : List String} {p : Vec3 Double} {fs : List Field}
    (h : TakesAll (⟨keys, .point p⟩ :: fs) args gs rest) :
    ∃ q more gs', gs = ⟨keys, .point q⟩ :: gs' ∧ TakesAll fs more gs' rest := by
  cases h with
  | cons htake h =>
    cases htake with
    | standard _ => exact ⟨p, _, _, rfl, h⟩
    | given _ hreplaces =>
      cases hreplaces
      exact ⟨_, _, _, rfl, h⟩

theorem TakesAll.exists_number {keys : List String} {b : Double} {fs : List Field}
    (h : TakesAll (⟨keys, .number b⟩ :: fs) args gs rest) :
    ∃ c more gs', gs = ⟨keys, .number c⟩ :: gs' ∧ TakesAll fs more gs' rest := by
  cases h with
  | cons htake h =>
    cases htake with
    | standard _ => exact ⟨b, _, _, rfl, h⟩
    | given _ hreplaces =>
      cases hreplaces
      exact ⟨_, _, _, rfl, h⟩

/-- Points stay points and lengths stay lengths, so that the values make up a region again. -/
theorem exists_region_of_takesAll (h : TakesAll (fields region) args gs rest) :
    ∃ region', region'.shape = region.shape ∧ fields region' = gs := by
  cases region with
  | sphere =>
    obtain ⟨center, _, _, rfl, h₁⟩ := h.exists_point
    obtain ⟨radius, _, _, rfl, h₂⟩ := h₁.exists_number
    cases h₂
    exact ⟨.sphere center radius, rfl, rfl⟩
  | cylinder =>
    obtain ⟨bottom, _, _, rfl, h₁⟩ := h.exists_point
    obtain ⟨top, _, _, rfl, h₂⟩ := h₁.exists_point
    obtain ⟨radius, _, _, rfl, h₃⟩ := h₂.exists_number
    cases h₃
    exact ⟨.cylinder bottom top radius, rfl, rfl⟩
  | parallelepiped =>
    obtain ⟨corner, _, _, rfl, h₁⟩ := h.exists_point
    obtain ⟨u, _, _, rfl, h₂⟩ := h₁.exists_point
    obtain ⟨v, _, _, rfl, h₃⟩ := h₂.exists_point
    obtain ⟨w, _, _, rfl, h₄⟩ := h₃.exists_point
    cases h₄
    exact ⟨.parallelepiped corner u v w, rfl, rfl⟩
  | cuboid =>
    obtain ⟨low, _, _, rfl, h₁⟩ := h.exists_point
    obtain ⟨high, _, _, rfl, h₂⟩ := h₁.exists_point
    cases h₂
    exact ⟨.cuboid ⟨low, high⟩, rfl, rfl⟩
  | ellipsoid =>
    obtain ⟨center, _, _, rfl, h₁⟩ := h.exists_point
    obtain ⟨a, _, _, rfl, h₂⟩ := h₁.exists_number
    obtain ⟨b, _, _, rfl, h₃⟩ := h₂.exists_number
    obtain ⟨c, _, _, rfl, h₄⟩ := h₃.exists_number
    cases h₄
    exact ⟨.ellipsoid center a b c, rfl, rfl⟩

/-- What a region is made of fits its shape and gives its values. -/
theorem fits_of_region (hnodup : (args.map (·.1)).Nodup) (h : args.region shape = .ok region) :
    region.shape = shape ∧ Fits (fields shape.standard) args ∧ HasValues region args := by
  obtain ⟨rfl, htakes⟩ := region_eq_ok_iff_takesAll.1 h
  obtain ⟨hfits, hvalues⟩ := fits_of_takesAll (pairwise_disjoint_fields _) hnodup htakes
  exact ⟨rfl, hfits, hvalues⟩

/-- Arguments that fit a shape make a region. -/
theorem exists_region_of_fits (h : Fits (fields shape.standard) args) :
    ∃ region, args.region shape = .ok region := by
  obtain ⟨gs, hgs⟩ := exists_takesAll (pairwise_disjoint_fields _) h
  obtain ⟨region, hshape, rfl⟩ := exists_region_of_takesAll hgs
  exact ⟨region, region_eq_ok_iff_takesAll.2 ⟨hshape.trans (Shape.shape_standard shape), hgs⟩⟩

/-- Arguments that fit a shape leave no choice. -/
theorem HasValues.unique (hfits : Fits (fields region.shape.standard) args)
    (h : HasValues region args) (h' : HasValues region' args)
    (hshape : region.shape = region'.shape) : region = region' := by
  refine fields_injective hshape ?_
  unfold HasValues at h'
  rw [← hshape] at h'
  -- for any part of the fields, so that the induction can drop the first one
  have hunique {fs gs gs' : List Field} (hsub : fs ⊆ fields region.shape.standard)
      (h : List.Forall₂ (IsValue args) fs gs) (h' : List.Forall₂ (IsValue args) fs gs') :
      gs = gs' := by
    induction h generalizing gs' with
    | nil =>
      cases h'
      rfl
    | cons hg _ ih =>
      cases h' with | cons hg' hgs' =>
      obtain ⟨hf, hfs⟩ := List.cons_subset.1 hsub
      rw [hg.unique hfits hf hg', ih hfs hgs']
  exact hunique (List.Subset.refl _) h h'

/-- **Regions by their arguments**: a region is made exactly of arguments that fit its shape and
give its values. -/
theorem region_eq_ok_iff (hnodup : (args.map (·.1)).Nodup) : args.region shape = .ok region ↔
    region.shape = shape ∧ Fits (fields shape.standard) args ∧ HasValues region args := by
  refine ⟨fits_of_region hnodup, ?_⟩
  rintro ⟨rfl, hfits, hvalues⟩
  obtain ⟨region', hregion'⟩ := exists_region_of_fits hfits
  obtain ⟨hshape, -, hvalues'⟩ := fits_of_region hnodup hregion'
  rw [hregion', hvalues.unique hfits hvalues' hshape.symm]

/-- The order of the arguments does not count. -/
theorem HasValues.perm (hperm : args.Perm args') (h : HasValues region args) :
    HasValues region args' :=
  h.imp fun _ _ => IsValue.perm hperm

/-! ## Calls -/

variable {name text : String}

/-- Keys of fields are made of letters and digits. -/
theorem Fits.forall_isKey (h : Fits (fields shape.standard) args) :
    ∀ given ∈ args, IsKey given.1 := by
  intro given hgiven
  obtain ⟨field, hfield, hkey, -⟩ := h.belongs given hgiven
  exact isKey_of_mem_fields _ field hfield given.1 hkey

/-- A call is read in two steps: its text, and then its arguments. -/
theorem readRegion_eq_ok_iff_region : readRegion name text = .ok region ↔
    ∃ args shape, Arguments.read text.toList = .ok args ∧ name = shape.name ∧
      args.region shape = .ok region := by
  unfold readRegion
  cases hread : Arguments.read text.toList with
  | error fault =>
    refine iff_of_false nofun ?_
    rintro ⟨args, shape, hargs, -⟩
    cases hargs
  | ok args =>
    dsimp only
    cases hname : Shape.ofName? name with
    | none =>
      refine iff_of_false nofun ?_
      rintro ⟨args, shape, -, rfl, -⟩
      rw [Shape.ofName?_name] at hname
      cases hname
    | some shape =>
      obtain rfl := ofName?_eq_some_iff.1 hname
      dsimp only
      constructor
      · intro h
        cases hregion : args.region shape with
        | error fault =>
          rw [hregion] at h
          cases h
        | ok region' =>
          rw [hregion] at h
          cases h
          exact ⟨args, shape, rfl, rfl, hregion⟩
      · rintro ⟨_, shape', hargs, hshape, hregion⟩
        cases hargs
        rw [hshape, Shape.ofName?_name] at hname
        cases hname
        rw [hregion]
        rfl

/-- **Calls of regions**: the name is that of the shape, and the text lists arguments that fit the
shape and give the values of the region. -/
theorem readRegion_eq_ok_iff : readRegion name text = .ok region ↔ name = region.shape.name ∧
    ∃ args, Arguments.IsListOf args text.toList ∧ Fits (fields region.shape.standard) args ∧
      HasValues region args := by
  rw [readRegion_eq_ok_iff_region]
  constructor
  · rintro ⟨args, shape, hread, rfl, hregion⟩
    obtain ⟨hlist, hnodup⟩ := Arguments.isListOf_of_read hread
    obtain ⟨rfl, hfits, hvalues⟩ := (region_eq_ok_iff hnodup).1 hregion
    exact ⟨rfl, args, hlist, hfits, hvalues⟩
  · rintro ⟨rfl, args, hlist, hfits, hvalues⟩
    exact ⟨args, _, Arguments.read_of_isListOf hlist hfits.nodup hfits.forall_isKey, rfl,
      (region_eq_ok_iff hfits.nodup).2 ⟨rfl, hfits, hvalues⟩⟩

theorem exists_readRegion_iff : (∃ region, readRegion name text = .ok region) ↔
    ∃ shape : Shape, name = shape.name ∧ ∃ args, Arguments.IsListOf args text.toList ∧
      Fits (fields shape.standard) args := by
  constructor
  · rintro ⟨region, h⟩
    obtain ⟨hname, args, hlist, hfits, -⟩ := readRegion_eq_ok_iff.1 h
    exact ⟨_, hname, args, hlist, hfits⟩
  · rintro ⟨shape, rfl, args, hlist, hfits⟩
    obtain ⟨region, hregion⟩ := exists_region_of_fits hfits
    exact ⟨region, readRegion_eq_ok_iff_region.2 ⟨args, shape,
      Arguments.read_of_isListOf hlist hfits.nodup hfits.forall_isKey, rfl, hregion⟩⟩

end

/-- **Regions are made exactly of the arguments that fit them, in any order.** A call makes a region
exactly if its name is that of the shape and its text lists arguments that fit the shape and give
the values of the region; it makes one if they fit at all; and if the assignments come in another
order, then the call makes the same region. -/
theorem region_arguments_exact (name text : String) :
    (∀ region, readRegion name text = .ok region ↔ name = region.shape.name ∧
      ∃ args, Arguments.IsListOf args text.toList ∧ Fits (fields region.shape.standard) args ∧
        HasValues region args) ∧
    ((∃ region, readRegion name text = .ok region) ↔
      ∃ shape : Shape, name = shape.name ∧ ∃ args, Arguments.IsListOf args text.toList ∧
        Fits (fields shape.standard) args) ∧
    ∀ (shape : Shape) (args : Arguments) (parts parts' : List (List Char)), name = shape.name →
      text.toList = [','].intercalate parts →
        List.Forall₂ (fun part given => IsAssignment given.1 given.2 part) parts args →
          Fits (fields shape.standard) args → parts.Perm parts' →
            ∃ region, readRegion name text = .ok region ∧
              readRegion name (String.ofList ([','].intercalate parts')) = .ok region := by
  refine ⟨fun _ => readRegion_eq_ok_iff, exists_readRegion_iff, ?_⟩
  rintro shape args parts parts' rfl htext hparts hfits hperm
  obtain ⟨region, hregion⟩ := exists_region_of_fits hfits
  obtain ⟨rfl, -, hvalues⟩ := fits_of_region hfits.nodup hregion
  obtain ⟨args', hparts', hargs⟩ := List.perm_comp_forall₂ hperm.symm hparts
  refine ⟨region, readRegion_eq_ok_iff.2 ⟨rfl, args, ?_, hfits, hvalues⟩,
    readRegion_eq_ok_iff.2 ⟨rfl, args', ?_, hfits.perm hargs.symm, hvalues.perm hargs.symm⟩⟩
  · rw [htext]
    exact .of_assignments hparts
  · rw [String.toList_ofList]
    exact .of_assignments hparts'

/-- A sphere with its center under the short key, and the same with the radius in front. -/
theorem region_arguments_exact_sphere :
    ∃ region, readRegion "Sphere" "c=[0,0, 0], r = 0" = .ok region ∧
      readRegion "Sphere" " r = 0,c=[0,0, 0]" = .ok region := by
  have hzero : IsPaddedNumber 0 ['0'] := ⟨['0'], rfl, [], [], by simp, by simp, rfl⟩
  have hspaced : IsPaddedNumber 0 [' ', '0'] :=
    ⟨['0'], rfl, [' '], [], by simp; decide, by simp, rfl⟩
  have hcenter : IsAssignment "c" (.point 0) "c=[0,0, 0]".toList :=
    ⟨['c'], "[0,0, 0]".toList, _, rfl, ⟨[], [], by simp, by simp, rfl⟩,
      .point hzero hzero hspaced, ⟨[], [], by simp, by simp, rfl⟩⟩
  have hradius : IsAssignment "r" (.number 0) " r = 0".toList :=
    ⟨[' ', 'r', ' '], [' ', '0'], ['0'], rfl,
      ⟨[' '], [' '], by simp; decide, by simp; decide, rfl⟩, .number rfl,
      ⟨[' '], [], by simp; decide, by simp, rfl⟩⟩
  have hfits : Fits (fields Shape.sphere.standard) [("c", .point 0), ("r", .number 0)] := by
    refine ⟨by decide, List.forall_mem_cons.2 ⟨?_, List.forall_mem_singleton.2 ?_⟩, ?_⟩
    · exact ⟨_, List.mem_cons_self, by simp, .point 0 _⟩
    · exact ⟨_, List.mem_cons_of_mem _ List.mem_cons_self, by simp, .number _ (by decide)⟩
    · simp [fields, Shape.standard]
  have htext : "c=[0,0, 0], r = 0".toList =
      [','].intercalate ["c=[0,0, 0]".toList, " r = 0".toList] := by simp
  have hsame := (region_arguments_exact "Sphere" "c=[0,0, 0], r = 0").2.2 .sphere
    [("c", .point 0), ("r", .number 0)] ["c=[0,0, 0]".toList, " r = 0".toList]
    [" r = 0".toList, "c=[0,0, 0]".toList] rfl htext (.cons hcenter (.cons hradius .nil)) hfits
    (.swap _ _ _)
  have hswapped : String.ofList ([','].intercalate [" r = 0".toList, "c=[0,0, 0]".toList]) =
      " r = 0,c=[0,0, 0]" := by simp
  rwa [hswapped] at hsame

end Honeycomb.Selection
