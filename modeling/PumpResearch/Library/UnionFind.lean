import PumpResearch.Library.KeyedOrder
import PumpResearch.Library.KeyedTable
import PumpResearch.Library.OrderedDict

/-! Disjoint sets as a dictionary of parents, with path compression; of two roots the smaller one
stays. The classes are the connected components of the pairs that were joined. -/
namespace UnionFind
open KeyedOrder OrderedDict

/-! ### Paths -/

section Paths
variable {α : Type*} {pairs more : List (α × α)} {a b : α}

/-- A path of pairs leads from one value to the other. -/
def Joined (pairs : List (α × α)) : α → α → Prop :=
  Relation.ReflTransGen fun a b => (a, b) ∈ pairs ∨ (b, a) ∈ pairs

theorem Joined.symm (h : Joined pairs a b) : Joined pairs b a := by
  induction h with
  | refl => exact .refl
  | tail _ hstep ih => exact .head hstep.symm ih

theorem Joined.equivalence (pairs : List (α × α)) : Equivalence (Joined pairs) :=
  ⟨fun _ => .refl, Joined.symm, Relation.ReflTransGen.trans⟩

theorem Joined.mono (hsub : ∀ pair ∈ pairs, pair ∈ more ∨ pair.swap ∈ more)
    (h : Joined pairs a b) : Joined more a b := by
  induction h with
  | refl => exact .refl
  | tail _ hstep ih =>
    refine ih.tail ?_
    cases hstep with
    | inl hpair => exact hsub _ hpair
    | inr hpair => exact (hsub _ hpair).symm

theorem joined_of_mem (h : (a, b) ∈ pairs) : Joined pairs a b := .single (.inl h)

end Paths

variable {κ : Type*} [LinearOrder κ]

/-! ### Operations -/

/-- The value kept under a key, stored first if there is none. -/
def setDefault (parents : Dict κ κ) (value : κ) : Dict κ κ :=
  if value ∈ parents.keys then parents else parents.set value value

/-- The root of a value, with every value on the way moved under it. Nested calls end at a depth. -/
def find : Nat → Dict κ κ → κ → Option (κ × Dict κ κ)
  | 0, _, _ => none
  | depth + 1, parents, value =>
    let known := setDefault parents value
    let parent := (known.get? value).getD value
    if parent ≠ value then
      (find depth known parent).map fun found => (found.1, found.2.set value found.1)
    else some (parent, known)

/-- Join two values: the larger root is put under the smaller. -/
def union (depth : Nat) (parents : Dict κ κ) (left right : κ) : Option (Dict κ κ) := do
  let leftFound ← find depth parents left
  let rightFound ← find depth leftFound.2 right
  if leftFound.1 ≠ rightFound.1 then
    return rightFound.2.set (max leftFound.1 rightFound.1) (min leftFound.1 rightFound.1)
  else return rightFound.2

/-! ### Roots -/

/-- Parents are keys and not larger than their children. -/
def Forest (parents : Dict κ κ) : Prop :=
  ∀ value parent, parents.get? value = some parent → parent ≤ value ∧ parent ∈ parents.keys

inductive Root (parents : Dict κ κ) : κ → κ → Prop
  | here {value : κ} (h : parents.get? value = some value) : Root parents value value
  | up {value parent root : κ} (h : parents.get? value = some parent) (hne : parent ≠ value)
      (hroot : Root parents parent root) : Root parents value root

section Roots
variable {parents : Dict κ κ} {value root : κ}

theorem Root.unique {other : κ} (h : Root parents value root) (h' : Root parents value other) :
    root = other := by
  induction h with
  | here hself =>
    cases h' with
    | here _ => rfl
    | up hparent hne _ => exact absurd (Option.some.inj (hparent.symm.trans hself)) hne
  | up hparent hne _ ih =>
    cases h' with
    | here hself => exact absurd (Option.some.inj (hparent.symm.trans hself)) hne
    | up hparent' _ hroot' =>
      obtain rfl := Option.some.inj (hparent.symm.trans hparent')
      exact ih hroot'

theorem Root.get?_root (h : Root parents value root) : parents.get? root = some root := by
  induction h with
  | here hself => exact hself
  | up _ _ _ ih => exact ih

theorem Root.self (h : Root parents value root) : Root parents root root := .here h.get?_root

theorem get?_isSome_iff : (∃ parent, parents.get? value = some parent) ↔ value ∈ parents.keys := by
  have hnone := parents.get?_eq_none_iff value
  cases hfound : parents.get? value with
  | none => simpa [hfound] using hnone
  | some parent => simpa [hfound] using hnone

theorem Root.mem_keys (h : Root parents value root) : value ∈ parents.keys := by
  cases h with
  | here hself => exact get?_isSome_iff.mp ⟨_, hself⟩
  | up hparent _ _ => exact get?_isSome_iff.mp ⟨_, hparent⟩

theorem Root.le (hforest : Forest parents) (h : Root parents value root) : root ≤ value := by
  induction h with
  | here _ => exact le_refl _
  | up hparent _ _ ih => exact ih.trans (hforest _ _ hparent).1

/-- How many keys lie below a value; it bounds the way to the root. -/
def below (parents : Dict κ κ) (value : κ) : Nat := parents.keys.countP (· < value)

theorem below_lt_of_parent (hforest : Forest parents) {parent : κ}
    (h : parents.get? value = some parent) (hne : parent ≠ value) :
    below parents parent < below parents value := by
  obtain ⟨hle, hmem⟩ := hforest _ _ h
  have hlt := lt_of_le_of_ne hle hne
  refine KeyedTable.Table.countP_lt_of_mem ?_ hmem ?_ ?_
  · intro key _ hkey
    exact decide_eq_true ((of_decide_eq_true hkey).trans hlt)
  · simp
  · simpa using hlt

theorem Forest.exists_root (hforest : Forest parents) (h : value ∈ parents.keys) :
    ∃ root, Root parents value root := by
  induction hbelow : below parents value using Nat.strong_induction_on generalizing value with
  | _ count ih =>
    obtain ⟨parent, hparent⟩ := get?_isSome_iff.mpr h
    by_cases hself : parent = value
    · subst hself
      exact ⟨parent, .here hparent⟩
    · have hlt := below_lt_of_parent hforest hparent hself
      rw [hbelow] at hlt
      obtain ⟨root, hroot⟩ := ih _ hlt (hforest _ _ hparent).2 rfl
      exact ⟨root, .up hparent hself hroot⟩

end Roots

/-! ### Values that are new -/

section Default
variable {parents : Dict κ κ} {value : κ}

theorem setDefault_of_mem (h : value ∈ parents.keys) : setDefault parents value = parents :=
  if_pos h

theorem mem_keys_setDefault {key : κ} :
    key ∈ (setDefault parents value).keys ↔ key ∈ parents.keys ∨ key = value := by
  rw [setDefault]
  by_cases hvalue : value ∈ parents.keys
  · rw [if_pos hvalue]
    constructor
    · exact .inl
    · intro h
      cases h with
      | inl hkey => exact hkey
      | inr heq => exact heq ▸ hvalue
  · rw [if_neg hvalue, Dict.keys_set, if_neg hvalue, List.mem_append, List.mem_singleton]

theorem get?_setDefault_of_ne {key : κ} (h : key ≠ value) :
    (setDefault parents value).get? key = parents.get? key := by
  rw [setDefault]
  split
  · rfl
  · exact parents.get?_set_of_ne value h

theorem get?_setDefault_new (h : value ∉ parents.keys) :
    (setDefault parents value).get? value = some value := by
  rw [setDefault, if_neg h, Dict.get?_set_self]

theorem Forest.setDefault (hforest : Forest parents) (value : κ) :
    Forest (setDefault parents value) := by
  intro key parent hparent
  rw [mem_keys_setDefault]
  by_cases hkey : key = value
  · subst hkey
    by_cases hmem : key ∈ parents.keys
    · rw [setDefault_of_mem hmem] at hparent
      exact ⟨(hforest _ _ hparent).1, .inl (hforest _ _ hparent).2⟩
    · rw [get?_setDefault_new hmem] at hparent
      cases hparent
      exact ⟨le_refl _, .inr rfl⟩
  · rw [get?_setDefault_of_ne hkey] at hparent
    exact ⟨(hforest _ _ hparent).1, .inl (hforest _ _ hparent).2⟩

theorem Root.setDefault {root key : κ} (h : Root parents key root) (value : κ) :
    Root (setDefault parents value) key root := by
  by_cases hmem : value ∈ parents.keys
  · rwa [setDefault_of_mem hmem]
  · have hkept : ∀ {key parent}, parents.get? key = some parent →
        (UnionFind.setDefault parents value).get? key = some parent := by
      intro key parent hparent
      rwa [get?_setDefault_of_ne]
      intro heq
      exact hmem (heq ▸ get?_isSome_iff.mp ⟨parent, hparent⟩)
    induction h with
    | here hself => exact .here (hkept hself)
    | up hparent hne _ ih => exact .up (hkept hparent) hne ih

/-- A new value is its own root, and old values keep theirs. -/
theorem root_setDefault (hforest : Forest parents) {root key : κ}
    (h : Root (setDefault parents value) key root) :
    Root parents key root ∨ (key = value ∧ root = value) := by
  by_cases hkey : key ∈ parents.keys
  · obtain ⟨old, hold⟩ := hforest.exists_root hkey
    exact .inl ((hold.setDefault value).unique h ▸ hold)
  · have hnew : key = value := (mem_keys_setDefault.mp h.mem_keys).resolve_left hkey
    subst hnew
    exact .inr ⟨rfl, h.unique (.here (get?_setDefault_new hkey))⟩

end Default

/-! ### Finding a root -/

/-- The same keys under the same roots. -/
structure SameRoots (parents parents' : Dict κ κ) : Prop where
  forest : Forest parents'
  keys : parents'.keys = parents.keys
  roots : ∀ value root, Root parents' value root ↔ Root parents value root

theorem SameRoots.refl {parents : Dict κ κ} (h : Forest parents) : SameRoots parents parents :=
  ⟨h, rfl, fun _ _ => Iff.rfl⟩

theorem SameRoots.trans {a b c : Dict κ κ} (h : SameRoots a b) (h' : SameRoots b c) :
    SameRoots a c :=
  ⟨h'.forest, h'.keys.trans h.keys, fun value root =>
    (h'.roots value root).trans (h.roots value root)⟩

/-- Path compression: a value is moved under its root. -/
theorem sameRoots_compress {parents : Dict κ κ} (hforest : Forest parents) {value root : κ}
    (h : Root parents value root) : SameRoots parents (parents.set value root) := by
  have hkeys : (parents.set value root).keys = parents.keys := by
    rw [Dict.keys_set, if_pos h.mem_keys]
  have hforest' : Forest (parents.set value root) := by
    intro key parent hparent
    rw [hkeys]
    by_cases hkey : key = value
    · subst hkey
      rw [Dict.get?_set_self] at hparent
      cases hparent
      exact ⟨h.le hforest, h.self.mem_keys⟩
    · rw [Dict.get?_set_of_ne _ _ hkey] at hparent
      exact hforest _ _ hparent
  have hself : Root (parents.set value root) root root := by
    by_cases heq : root = value
    · subst heq
      exact .here (Dict.get?_set_self _ _ _)
    · exact .here ((Dict.get?_set_of_ne _ _ heq).trans h.get?_root)
  have hkept : ∀ {key other}, Root parents key other → Root (parents.set value root) key other := by
    intro key other hother
    induction hother with
    | @here key hroot =>
      by_cases hkey : key = value
      · subst hkey
        obtain rfl := (Root.here hroot).unique h
        exact hself
      · exact .here ((Dict.get?_set_of_ne _ _ hkey).trans hroot)
    | @up key parent other hparent hne hroot ih =>
      by_cases hkey : key = value
      · subst hkey
        obtain rfl := (Root.up hparent hne hroot).unique h
        by_cases heq : other = key
        · subst heq
          exact hself
        · exact .up (Dict.get?_set_self _ _ _) heq hself
      · exact .up ((Dict.get?_set_of_ne _ _ hkey).trans hparent) hne ih
  refine ⟨hforest', hkeys, fun key other => ⟨fun hother => ?_, hkept⟩⟩
  obtain ⟨old, hold⟩ := hforest.exists_root (hkeys ▸ hother.mem_keys)
  exact (hkept hold).unique hother ▸ hold

/-- With as much depth as keys lie below a key, its root is found. -/
theorem find_of_mem (depth : Nat) {parents : Dict κ κ} (hforest : Forest parents) {value : κ}
    (hmem : value ∈ parents.keys) (hdepth : below parents value < depth) :
    ∃ root parents', find depth parents value = some (root, parents') ∧
      Root parents value root ∧ SameRoots parents parents' := by
  induction depth generalizing value with
  | zero => omega
  | succ depth ih =>
    obtain ⟨parent, hparent⟩ := get?_isSome_iff.mpr hmem
    rw [find]
    simp only [setDefault_of_mem hmem, hparent, Option.getD_some]
    by_cases hself : parent = value
    · subst hself
      rw [if_neg (by simp)]
      exact ⟨parent, parents, rfl, .here hparent, .refl hforest⟩
    · rw [if_pos hself]
      have hlt := below_lt_of_parent hforest hparent hself
      obtain ⟨root, moved, hfound, hroot, hsame⟩ := ih (hforest _ _ hparent).2 (by omega)
      have hup : Root parents value root := .up hparent hself hroot
      rw [hfound]
      exact ⟨root, _, rfl, hup, hsame.trans
        (sameRoots_compress hsame.forest ((hsame.roots _ _).mpr hup))⟩

theorem below_lt_length {parents : Dict κ κ} {value : κ} (h : value ∈ parents.keys) :
    below parents value < parents.keys.length := by
  refine lt_of_le_of_ne List.countP_le_length fun heq => ?_
  have hself := List.countP_eq_length.mp heq value h
  simp at hself

theorem find_setDefault (depth : Nat) (parents : Dict κ κ) (value : κ) :
    find depth (setDefault parents value) value = find depth parents value := by
  have hmem : value ∈ (setDefault parents value).keys := mem_keys_setDefault.mpr (.inr rfl)
  cases depth with
  | zero => rfl
  | succ depth => rw [find, find, setDefault_of_mem hmem]

/-- A value is found, stored first if it is new. -/
theorem find_total (depth : Nat) {parents : Dict κ κ} (hforest : Forest parents) (value : κ)
    (hdepth : (setDefault parents value).keys.length ≤ depth) :
    ∃ root parents', find depth parents value = some (root, parents') ∧
      Root (setDefault parents value) value root ∧
      SameRoots (setDefault parents value) parents' := by
  have hmem : value ∈ (setDefault parents value).keys := mem_keys_setDefault.mpr (.inr rfl)
  rw [← find_setDefault]
  exact find_of_mem depth (hforest.setDefault value) hmem ((below_lt_length hmem).trans_le hdepth)

/-! ### Joining -/

/-- Two values have one root. -/
def Linked (parents : Dict κ κ) (a b : κ) : Prop := ∃ root, Root parents a root ∧ Root parents b root

theorem Linked.symm {parents : Dict κ κ} {a b : κ} (h : Linked parents a b) :
    Linked parents b a := by
  obtain ⟨root, ha, hb⟩ := h
  exact ⟨root, hb, ha⟩

theorem Linked.trans {parents : Dict κ κ} {a b c : κ} (h : Linked parents a b)
    (h' : Linked parents b c) : Linked parents a c := by
  obtain ⟨root, ha, hb⟩ := h
  obtain ⟨other, hb', hc⟩ := h'
  obtain rfl := hb.unique hb'
  exact ⟨root, ha, hc⟩

/-- What a join adds: the two values with their classes, and nothing else. -/
structure Unites (parents parents' : Dict κ κ) (left right : κ) : Prop where
  forest : Forest parents'
  keys : ∀ key, key ∈ parents'.keys ↔ key ∈ parents.keys ∨ key = left ∨ key = right
  size : parents'.keys.length ≤ parents.keys.length + 2
  linked : Linked parents' left right
  kept : ∀ a b, Linked parents a b → Linked parents' a b
  /-- Values stay equivalent to their roots. -/
  sound : ∀ E : κ → κ → Prop, Equivalence E → (∀ value root, Root parents value root → E value root) →
    E left right → ∀ value root, Root parents' value root → E value root

/-- A larger root under a smaller one takes its class along. -/
theorem root_link {parents : Dict κ κ} (hforest : Forest parents) {low high : κ}
    (hlow : Root parents low low) (hhigh : Root parents high high) (hlt : low < high) :
    Forest (parents.set high low) ∧ (parents.set high low).keys = parents.keys ∧
      ∀ value root, Root parents value root →
        Root (parents.set high low) value (if root = high then low else root) := by
  have hkeys : (parents.set high low).keys = parents.keys := by
    rw [Dict.keys_set, if_pos hhigh.mem_keys]
  have hlow' : Root (parents.set high low) low low :=
    .here ((Dict.get?_set_of_ne _ _ hlt.ne).trans hlow.get?_root)
  refine ⟨?_, hkeys, ?_⟩
  · intro key parent hparent
    rw [hkeys]
    by_cases hkey : key = high
    · subst hkey
      rw [Dict.get?_set_self] at hparent
      cases hparent
      exact ⟨hlt.le, hlow.mem_keys⟩
    · rw [Dict.get?_set_of_ne _ _ hkey] at hparent
      exact hforest _ _ hparent
  · intro value root hroot
    induction hroot with
    | @here value hself =>
      by_cases hvalue : value = high
      · rw [if_pos hvalue]
        subst hvalue
        exact .up (Dict.get?_set_self _ _ _) hlt.ne hlow'
      · rw [if_neg hvalue]
        exact .here ((Dict.get?_set_of_ne _ _ hvalue).trans hself)
    | @up value parent root hparent hne _ ih =>
      have hvalue : value ≠ high := by
        intro heq
        subst heq
        exact hne (Option.some.inj (hparent.symm.trans hhigh.get?_root))
      exact .up ((Dict.get?_set_of_ne _ _ hvalue).trans hparent) hne ih

theorem length_keys_setDefault_le (parents : Dict κ κ) (value : κ) :
    (setDefault parents value).keys.length ≤ parents.keys.length + 1 := by
  rw [setDefault]
  split
  · omega
  · next hnew => rw [Dict.keys_set, if_neg hnew, List.length_append, List.length_singleton]

/-- With as much depth as there are keys afterwards, a join ends, and unites its values. -/
theorem union_total (depth : Nat) {parents : Dict κ κ} (hforest : Forest parents) (left right : κ)
    (hdepth : parents.keys.length + 2 ≤ depth) :
    ∃ parents', union depth parents left right = some parents' ∧
      Unites parents parents' left right := by
  have hleftSize := length_keys_setDefault_le parents left
  obtain ⟨leftRoot, first, hleft, hleftRoot, hfirst⟩ :=
    find_total depth hforest left (by omega)
  have hrightSize := length_keys_setDefault_le first right
  rw [hfirst.keys] at hrightSize
  obtain ⟨rightRoot, second, hright, hrightRoot, hsecond⟩ :=
    find_total depth hfirst.forest right (by omega)
  -- both roots are roots of the second dictionary, which has all the keys
  have hroots : ∀ value root, Root parents value root → Root second value root :=
    fun value root hroot => (hsecond.roots _ _).mpr
      (((hfirst.roots _ _).mpr (hroot.setDefault left)).setDefault right)
  have hleftSecond : Root second left leftRoot :=
    (hsecond.roots _ _).mpr (((hfirst.roots _ _).mpr hleftRoot).setDefault right)
  have hrightSecond : Root second right rightRoot := (hsecond.roots _ _).mpr hrightRoot
  have hkeys : ∀ key, key ∈ second.keys ↔ key ∈ parents.keys ∨ key = left ∨ key = right := by
    intro key
    rw [hsecond.keys, mem_keys_setDefault, hfirst.keys, mem_keys_setDefault, or_assoc]
  have hsize : second.keys.length ≤ parents.keys.length + 2 := by
    rw [hsecond.keys]
    omega
  have hsource : ∀ E : κ → κ → Prop, Equivalence E →
      (∀ value root, Root parents value root → E value root) →
      ∀ value root, Root second value root → E value root := by
    intro E hequiv hE value root hroot
    cases root_setDefault hfirst.forest ((hsecond.roots _ _).mp hroot) with
    | inr hnew => exact hnew.1 ▸ hnew.2 ▸ hequiv.refl _
    | inl hold =>
      cases root_setDefault hforest ((hfirst.roots _ _).mp hold) with
      | inr hnew => exact hnew.1 ▸ hnew.2 ▸ hequiv.refl _
      | inl hbefore => exact hE _ _ hbefore
  rw [union, hleft, Option.bind_eq_bind, Option.bind_some, hright, Option.bind_some]
  by_cases hsame : leftRoot = rightRoot
  · rw [if_neg (by simpa using hsame)]
    refine ⟨second, rfl, hsecond.forest, hkeys, hsize, ⟨leftRoot, hleftSecond, hsame ▸ hrightSecond⟩,
      ?_, fun E hequiv hE _ => hsource E hequiv hE⟩
    intro a b hlinked
    obtain ⟨root, ha, hb⟩ := hlinked
    exact ⟨root, hroots _ _ ha, hroots _ _ hb⟩
  · rw [if_pos hsame]
    have hleftRoot' : Root second leftRoot leftRoot := hleftSecond.self
    have hrightRoot' : Root second rightRoot rightRoot := hrightSecond.self
    have hlow : Root second (min leftRoot rightRoot) (min leftRoot rightRoot) := by
      cases min_choice leftRoot rightRoot with
      | inl h => rwa [h]
      | inr h => rwa [h]
    have hhigh : Root second (max leftRoot rightRoot) (max leftRoot rightRoot) := by
      cases max_choice leftRoot rightRoot with
      | inl h => rwa [h]
      | inr h => rwa [h]
    obtain ⟨hforest', hkeys', hmoved⟩ :=
      root_link hsecond.forest hlow hhigh (min_lt_max.mpr hsame)
    have hlinked : ∀ a b, Linked second a b → Linked (second.set (max leftRoot rightRoot)
        (min leftRoot rightRoot)) a b := by
      intro a b h
      obtain ⟨root, ha, hb⟩ := h
      exact ⟨_, hmoved _ _ ha, hmoved _ _ hb⟩
    have hjoined : ∀ value root, root = leftRoot ∨ root = rightRoot → Root second value root →
        Root (second.set (max leftRoot rightRoot) (min leftRoot rightRoot)) value
          (min leftRoot rightRoot) := by
      intro value root hroot h
      have hmove := hmoved value root h
      by_cases hmax : root = max leftRoot rightRoot
      · rwa [if_pos hmax] at hmove
      · rw [if_neg hmax] at hmove
        have hmin : root = min leftRoot rightRoot := by
          cases hroot with
          | inl heq => cases le_total leftRoot rightRoot with
            | inl hle => rw [heq, min_eq_left hle]
            | inr hle => exact absurd (heq.trans (max_eq_left hle).symm) hmax
          | inr heq => cases le_total leftRoot rightRoot with
            | inl hle => exact absurd (heq.trans (max_eq_right hle).symm) hmax
            | inr hle => rw [heq, min_eq_right hle]
        rwa [hmin] at hmove
    refine ⟨_, rfl, hforest', ?_, ?_, ?_, ?_, ?_⟩
    · intro key
      rw [hkeys']
      exact hkeys key
    · rw [hkeys']
      exact hsize
    · exact ⟨_, hjoined _ _ (.inl rfl) hleftSecond, hjoined _ _ (.inr rfl) hrightSecond⟩
    · intro a b h
      obtain ⟨root, ha, hb⟩ := h
      exact hlinked a b ⟨root, hroots _ _ ha, hroots _ _ hb⟩
    · intro E hequiv hE hpair value root hroot
      have hbefore := hsource E hequiv hE
      have hends : E leftRoot rightRoot :=
        hequiv.trans (hequiv.symm (hbefore _ _ hleftSecond)) (hequiv.trans hpair
          (hbefore _ _ hrightSecond))
      obtain ⟨old, hold⟩ := hsecond.forest.exists_root (hkeys' ▸ hroot.mem_keys)
      have hvalue := hbefore _ _ hold
      rw [← (hmoved _ _ hold).unique hroot]
      split
      · next hmax =>
        rw [hmax] at hvalue
        refine hequiv.trans hvalue ?_
        cases le_total leftRoot rightRoot with
        | inl hle =>
          rw [max_eq_right hle, min_eq_left hle]
          exact hequiv.symm hends
        | inr hle =>
          rw [max_eq_left hle, min_eq_right hle]
          exact hends
      · exact hvalue

/-! ### Joining pairs -/

/-- Join the values of every pair. -/
def joinAll (depth : Nat) (pairs : List (κ × κ)) (parents : Dict κ κ) : Option (Dict κ κ) :=
  pairs.foldlM (fun parents pair => union depth parents pair.1 pair.2) parents

section Pairs
variable {pairs : List (κ × κ)}

/-- The classes of a dictionary are the components of the pairs. -/
structure Represents (pairs : List (κ × κ)) (parents : Dict κ κ) : Prop where
  forest : Forest parents
  keys : ∀ key, key ∈ parents.keys ↔ ∃ pair ∈ pairs, key = pair.1 ∨ key = pair.2
  size : parents.keys.length ≤ 2 * pairs.length
  complete : ∀ pair ∈ pairs, Linked parents pair.1 pair.2
  sound : ∀ value root, Root parents value root → Joined pairs value root

theorem represents_empty : Represents ([] : List (κ × κ)) Dict.empty where
  forest value parent h := by cases h
  keys key := by simp
  size := by simp
  complete pair hpair := by cases hpair
  sound value root h := by
    have hmem := h.mem_keys
    cases hmem

/-- One more pair. -/
theorem Represents.step {parents parents' : Dict κ κ} (h : Represents pairs parents) {pair : κ × κ}
    (hunites : Unites parents parents' pair.1 pair.2) : Represents (pairs ++ [pair]) parents' where
  forest := hunites.forest
  keys key := by
    rw [hunites.keys, h.keys]
    simp only [List.mem_append, List.mem_singleton, or_and_right, exists_or, exists_eq_left]
  size := by
    have hbefore := h.size
    have hafter := hunites.size
    rw [List.length_append, List.length_singleton]
    omega
  complete other hother := by
    cases List.mem_append.mp hother with
    | inl hold => exact hunites.kept _ _ (h.complete other hold)
    | inr hnew =>
      rw [List.mem_singleton] at hnew
      subst hnew
      exact hunites.linked
  sound := by
    refine hunites.sound _ (Joined.equivalence _) ?_ (joined_of_mem (by simp))
    intro value root hroot
    exact (h.sound value root hroot).mono fun other hother => .inl (List.mem_append_left _ hother)

theorem joinAll_from (depth : Nat) (rest : List (κ × κ)) {parents : Dict κ κ}
    (h : Represents pairs parents) (hdepth : 2 * (pairs ++ rest).length ≤ depth) :
    ∃ parents', joinAll depth rest parents = some parents' ∧
      Represents (pairs ++ rest) parents' := by
  induction rest generalizing pairs parents with
  | nil => exact ⟨parents, rfl, by rwa [List.append_nil]⟩
  | cons pair rest ih =>
    rw [List.length_append, List.length_cons] at hdepth
    have hsize := h.size
    obtain ⟨next, hunion, hunites⟩ :=
      union_total depth h.forest pair.1 pair.2 (by omega)
    obtain ⟨last, hrest, hrepresents⟩ := ih (h.step hunites) (by simp; omega)
    refine ⟨last, ?_, by simpa using hrepresents⟩
    rw [joinAll, List.foldlM_cons, hunion]
    exact hrest

/-- With twice as much depth as there are pairs, joining ends with their components. -/
theorem joinAll_total (depth : Nat) (pairs : List (κ × κ)) (hdepth : 2 * pairs.length ≤ depth) :
    ∃ parents, joinAll depth pairs Dict.empty = some parents ∧ Represents pairs parents := by
  simpa using joinAll_from depth pairs represents_empty (by simpa using hdepth)

/-- Two values that occur have one root exactly when a path of pairs joins them. -/
theorem Represents.linked_iff {parents : Dict κ κ} (h : Represents pairs parents) {a b : κ}
    (ha : a ∈ parents.keys) : Linked parents a b ↔ Joined pairs a b := by
  constructor
  · intro hlinked
    obtain ⟨root, hrootA, hrootB⟩ := hlinked
    exact (h.sound a root hrootA).trans (h.sound b root hrootB).symm
  · intro hjoined
    induction hjoined with
    | refl =>
      obtain ⟨root, hroot⟩ := h.forest.exists_root ha
      exact ⟨root, hroot, hroot⟩
    | tail _ hstep ih =>
      refine ih.trans ?_
      cases hstep with
      | inl hpair => exact h.complete _ hpair
      | inr hpair => exact (h.complete _ hpair).symm

end Pairs

/-! ### Gathering the classes -/

/-- The keys under each root, with their roots found one after the other. -/
def gather (depth : Nat) (parents : Dict κ κ) : Option (Dict κ (List κ)) :=
  (parents.keys.foldlM (fun (state : Dict κ κ × Dict κ (List κ)) value =>
    (find depth state.1 value).map fun found =>
      (found.2, state.2.set found.1 ((state.2.get? found.1).getD [] ++ [value])))
    (parents, Dict.empty)).map Prod.snd

section Gathering
variable {parents : Dict κ κ}

open Classical in
/-- The root of a value that has one. -/
noncomputable def rootOf (parents : Dict κ κ) (value : κ) : κ :=
  if h : ∃ root, Root parents value root then h.choose else value

theorem rootOf_eq {value root : κ} (h : Root parents value root) : rootOf parents value = root := by
  have hex : ∃ root, Root parents value root := ⟨root, h⟩
  rw [rootOf, dif_pos hex]
  exact hex.choose_spec.unique h

theorem gather_from (depth : Nat) (rest : List κ) {parents' : Dict κ κ}
    (groups : Dict κ (List κ)) (hsame : SameRoots parents parents')
    (hrest : ∀ value ∈ rest, value ∈ parents.keys) (hdepth : parents.keys.length ≤ depth) :
    ∃ last, rest.foldlM (fun (state : Dict κ κ × Dict κ (List κ)) value =>
      (find depth state.1 value).map fun found =>
        (found.2, state.2.set found.1 ((state.2.get? found.1).getD [] ++ [value])))
      (parents', groups) = some (last, groupInto (rootOf parents) rest groups) := by
  induction rest generalizing parents' groups with
  | nil => exact ⟨parents', rfl⟩
  | cons value rest ih =>
    have hmem : value ∈ parents'.keys := hsame.keys ▸ hrest value List.mem_cons_self
    have hbelow := below_lt_length hmem
    obtain ⟨root, next, hfound, hroot, hnext⟩ :=
      find_of_mem depth hsame.forest hmem (by rw [hsame.keys] at hbelow; omega)
    have hrootOf := rootOf_eq ((hsame.roots _ _).mp hroot)
    obtain ⟨last, hlast⟩ := ih (groups.set root ((groups.get? root).getD [] ++ [value]))
      (hsame.trans hnext) fun other hother => hrest other (List.mem_cons_of_mem _ hother)
    refine ⟨last, ?_⟩
    rw [List.foldlM_cons, hfound, Option.map_some, Option.bind_eq_bind, Option.bind_some, hlast,
      groupInto, groupInto, List.foldl_cons, hrootOf]

/-- With as much depth as there are keys, every key is gathered under its root. -/
theorem gather_total (depth : Nat) (hforest : Forest parents)
    (hdepth : parents.keys.length ≤ depth) :
    gather depth parents = some (groupInto (rootOf parents) parents.keys Dict.empty) := by
  obtain ⟨last, hlast⟩ := gather_from depth parents.keys Dict.empty
    (SameRoots.refl hforest) (fun _ hmem => hmem) hdepth
  rw [gather, hlast, Option.map_some]

end Gathering

/-! ### Classes -/

/-- The groups, each sorted, in order. -/
def sortedGroups (groups : Dict κ (List κ)) : List (List κ) :=
  sortOn id (groups.values.map (sortOn id))

/-- A sorted class of the values that occur. -/
structure IsClass (pairs : List (κ × κ)) (members : List κ) : Prop where
  sorted : members.Pairwise (· < ·)
  component : ∃ value, (∃ pair ∈ pairs, value = pair.1 ∨ value = pair.2) ∧
    ∀ other, other ∈ members ↔ Joined pairs value other

/-- All classes, in order. -/
structure Classes (pairs : List (κ × κ)) (classes : List (List κ)) : Prop where
  ordered : classes.Pairwise (· < ·)
  mem_iff : ∀ members, members ∈ classes ↔ IsClass pairs members

theorem pairwise_lt_sortOn {xs : List κ} (h : xs.Nodup) : (sortOn id xs).Pairwise (· < ·) := by
  have hnodup := (sortOn_perm id xs).nodup_iff.mpr h
  exact ((sortOn_pairwise id xs).and hnodup).imp fun hab => lt_of_le_of_ne hab.1 hab.2

theorem eq_of_pairwise_lt {xs ys : List κ} (hx : xs.Pairwise (· < ·)) (hy : ys.Pairwise (· < ·))
    (h : ∀ a, a ∈ xs ↔ a ∈ ys) : xs = ys := by
  have hperm : xs.Perm ys := (List.perm_ext_iff_of_nodup (hx.imp fun hab => hab.ne)
    (hy.imp fun hab => hab.ne)).mpr h
  exact hperm.eq_of_pairwise (fun a b _ _ hab hba => absurd hba (lt_asymm hab)) hx hy

section Classes
variable {pairs : List (κ × κ)} {parents : Dict κ κ}

/-- The keys with a given root. -/
theorem Represents.mem_filter (h : Represents pairs parents) {value : κ}
    (hvalue : value ∈ parents.keys) (other : κ) :
    other ∈ parents.keys.filter (fun key => rootOf parents key = rootOf parents value) ↔
      Joined pairs value other := by
  obtain ⟨root, hroot⟩ := h.forest.exists_root hvalue
  rw [List.mem_filter, decide_eq_true_eq, rootOf_eq hroot, ← h.linked_iff hvalue]
  constructor
  · intro hother
    obtain ⟨hmem, heq⟩ := hother
    obtain ⟨otherRoot, hotherRoot⟩ := h.forest.exists_root hmem
    rw [rootOf_eq hotherRoot] at heq
    exact ⟨root, hroot, heq ▸ hotherRoot⟩
  · intro hlinked
    obtain ⟨common, hcommon, hother⟩ := hlinked
    obtain rfl := hcommon.unique hroot
    exact ⟨hother.mem_keys, rootOf_eq hother⟩

theorem values_groupInto_rootOf (parents : Dict κ κ) :
    (groupInto (rootOf parents) parents.keys Dict.empty).values =
      (groupInto (rootOf parents) parents.keys Dict.empty).keys.map fun root =>
        parents.keys.filter fun key => rootOf parents key = root := by
  rw [Dict.values_eq_map_get? _ []]
  refine List.map_congr_left fun root _ => ?_
  rw [getD_groupInto, Dict.get?_empty, Option.getD_none, List.nil_append]

theorem mem_keys_groupInto_rootOf {root : κ} :
    root ∈ (groupInto (rootOf parents) parents.keys Dict.empty).keys ↔
      ∃ value ∈ parents.keys, rootOf parents value = root := by
  rw [mem_keys_groupInto]
  simp

/-- The gathered groups are the classes of the pairs. -/
theorem Represents.classes (h : Represents pairs parents) :
    Classes pairs (sortedGroups (groupInto (rootOf parents) parents.keys Dict.empty)) := by
  rw [sortedGroups, values_groupInto_rootOf, List.map_map]
  constructor
  · refine pairwise_lt_sortOn (List.Nodup.map_on ?_ (Dict.nodup _))
    intro root hroot other hother heq
    obtain ⟨value, hvalue, rfl⟩ := mem_keys_groupInto_rootOf.mp hroot
    have hmem : value ∈ sortOn id (parents.keys.filter fun key => rootOf parents key = other) := by
      have hself : value ∈ sortOn id
          (parents.keys.filter fun key => rootOf parents key = rootOf parents value) :=
        (mem_sortOn _ _ _).mpr (List.mem_filter.mpr ⟨hvalue, by simp⟩)
      rw [Function.comp_apply, Function.comp_apply] at heq
      rwa [heq] at hself
    exact of_decide_eq_true (List.mem_filter.mp ((mem_sortOn _ _ _).mp hmem)).2
  · intro members
    rw [mem_sortOn, List.mem_map]
    constructor
    · intro hmembers
      obtain ⟨root, hroot, rfl⟩ := hmembers
      obtain ⟨value, hvalue, rfl⟩ := mem_keys_groupInto_rootOf.mp hroot
      refine ⟨pairwise_lt_sortOn (parents.nodup.filter _), value, (h.keys value).mp hvalue, ?_⟩
      intro other
      rw [Function.comp_apply, mem_sortOn, h.mem_filter hvalue]
    · intro hclass
      obtain ⟨hsorted, value, hoccurs, hmembers⟩ := hclass
      have hvalue := (h.keys value).mpr hoccurs
      refine ⟨rootOf parents value, mem_keys_groupInto_rootOf.mpr ⟨value, hvalue, rfl⟩, ?_⟩
      refine eq_of_pairwise_lt (pairwise_lt_sortOn (parents.nodup.filter _)) hsorted fun other => ?_
      rw [Function.comp_apply, mem_sortOn, h.mem_filter hvalue, hmembers]

/-- A class is what is joined to any of its values. -/
theorem IsClass.mem_iff {members : List κ} (h : IsClass pairs members) {value : κ}
    (hvalue : value ∈ members) (other : κ) : other ∈ members ↔ Joined pairs value other := by
  obtain ⟨first, _, hmembers⟩ := h.component
  rw [hmembers] at hvalue ⊢
  exact ⟨hvalue.symm.trans, hvalue.trans⟩

open Classical in
/-- Every value that occurs is in a class. -/
theorem exists_isClass {value : κ} (h : ∃ pair ∈ pairs, value = pair.1 ∨ value = pair.2) :
    ∃ members, IsClass pairs members ∧ value ∈ members := by
  have hmem : ∀ other, other ∈ sortOn id ((value :: pairs.flatMap fun pair =>
      [pair.1, pair.2]).filter (Joined pairs value)).dedup ↔ Joined pairs value other := by
    intro other
    rw [mem_sortOn, List.mem_dedup, List.mem_filter, decide_eq_true_eq]
    refine ⟨And.right, fun hjoined => ⟨?_, hjoined⟩⟩
    cases hjoined with
    | refl => exact List.mem_cons_self
    | tail _ hstep =>
      refine List.mem_cons_of_mem _ (List.mem_flatMap.mpr ?_)
      cases hstep with
      | inl hpair => exact ⟨_, hpair, by simp⟩
      | inr hpair => exact ⟨_, hpair, by simp⟩
  exact ⟨_, ⟨pairwise_lt_sortOn (List.nodup_dedup _), value, h, hmem⟩, (hmem value).mpr .refl⟩

/-- Pairs that join the same values have the same classes. -/
theorem IsClass.congr {more : List (κ × κ)} {members : List κ} (h : IsClass pairs members)
    (hsub : ∀ pair ∈ pairs, pair ∈ more ∨ pair.swap ∈ more)
    (hsub' : ∀ pair ∈ more, pair ∈ pairs ∨ pair.swap ∈ pairs) : IsClass more members := by
  obtain ⟨value, hvalue, hmembers⟩ := h.component
  refine ⟨h.sorted, value, ?_, fun other =>
    (hmembers other).trans ⟨Joined.mono hsub, Joined.mono hsub'⟩⟩
  obtain ⟨pair, hpair, hend⟩ := hvalue
  cases hsub pair hpair with
  | inl hmem => exact ⟨pair, hmem, hend⟩
  | inr hmem => exact ⟨pair.swap, hmem, hend.symm⟩

theorem Classes.congr {more : List (κ × κ)} {classes : List (List κ)} (h : Classes pairs classes)
    (hsub : ∀ pair ∈ pairs, pair ∈ more ∨ pair.swap ∈ more)
    (hsub' : ∀ pair ∈ more, pair ∈ pairs ∨ pair.swap ∈ pairs) : Classes more classes where
  ordered := h.ordered
  mem_iff members := by
    rw [h.mem_iff]
    exact ⟨fun hclass => hclass.congr hsub hsub', fun hclass => hclass.congr hsub' hsub⟩

theorem Classes.unique {classes classes' : List (List κ)} (h : Classes pairs classes)
    (h' : Classes pairs classes') : classes = classes' :=
  eq_of_pairwise_lt h.ordered h'.ordered fun members => by rw [h.mem_iff, h'.mem_iff]

end Classes

end UnionFind
