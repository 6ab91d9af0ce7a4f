import Smmboss.Client.HoseParser

namespace Smmboss.Client.JsMap

/-! # Maps in insertion order

What is found after `set` and `delete`, and under a change of the values.
-/

section Lookup

variable {K V : Type} [DecidableEq K]

theorem kreplace_cons (entries : List (Sigma fun _ : K => V)) (key first : K) (value old : V) :
    List.kreplace key value (⟨first, old⟩ :: entries) =
      if key = first then ⟨key, value⟩ :: entries
      else ⟨first, old⟩ :: List.kreplace key value entries := by
  rw [List.kreplace, List.lookmap_cons]
  by_cases here : key = first
  · simp [here]
  · simp [here]

theorem dlookup_kreplace {entries : List (Sigma fun _ : K => V)} {key : K} {value : V}
    (present : key ∈ entries.keys) (other : K) :
    (List.kreplace key value entries).dlookup other =
      if other = key then some value else entries.dlookup other := by
  induction entries with
  | nil => simp at present
  | cons entry entries ih =>
      obtain ⟨first, old⟩ := entry
      rw [kreplace_cons]
      by_cases here : key = first
      · subst here
        rw [if_pos rfl]
        by_cases same : other = key
        · subst same
          simp
        · rw [if_neg same, List.dlookup_cons_ne _ _ same, List.dlookup_cons_ne _ _ same]
      · have later : key ∈ List.keys entries := by
          rcases List.mem_cons.mp present with equal | later
          · exact absurd equal here
          · exact later
        rw [if_neg here]
        by_cases same : other = first
        · subst same
          simp [Ne.symm here]
        · rw [List.dlookup_cons_ne _ _ same, List.dlookup_cons_ne _ _ same, ih later]

theorem lookup_set (map : JsMap K V) (key : K) (value : V) (other : K) :
    (map.set key value).lookup other = if other = key then some value else map.lookup other := by
  unfold set
  split
  · exact dlookup_kreplace ‹_› other
  · rename_i absent
    have missing : map.lookup key = none := AList.lookup_eq_none.mpr absent
    show (map.entries ++ [(⟨key, value⟩ : Sigma fun _ : K => V)]).dlookup other = _
    rw [List.dlookup_append]
    by_cases same : other = key
    · subst same
      have unknown : List.dlookup other map.entries = none := missing
      simp [unknown]
    · simp only [if_neg same]
      rw [List.dlookup_cons_ne _ _ same, List.dlookup_nil, Option.or_none]
      rfl

theorem lookup_erase (map : JsMap K V) (key other : K) :
    (map.erase key).lookup other = if other = key then none else map.lookup other := by
  by_cases same : other = key
  · subst same
    rw [if_pos rfl, AList.lookup_erase]
  · rw [if_neg same, AList.lookup_erase_ne same]

theorem mem_values_iff {map : JsMap K V} {value : V} :
    value ∈ map.entries.map Sigma.snd ↔ ∃ key, map.lookup key = some value := by
  rw [List.mem_map]
  constructor
  · rintro ⟨⟨key, _⟩, member, rfl⟩
    exact ⟨key, AList.mem_lookup_iff.mpr member⟩
  · intro ⟨key, found⟩
    exact ⟨(⟨key, value⟩ : Sigma fun _ : K => V), AList.mem_lookup_iff.mp found, rfl⟩

end Lookup

/-! ## Other values -/

section MapValues

variable {K V W : Type} {f : V → W}

def mapEntry (f : V → W) : (Sigma fun _ : K => V) → Sigma fun _ : K => W :=
  Sigma.map id fun _ => f

def mapValues (f : V → W) (map : JsMap K V) : JsMap K W :=
  ⟨map.entries.map (mapEntry f), map.nodupKeys.map₂ (fun _ => f) map.entries⟩

@[simp] theorem mapValues_empty : mapValues f (∅ : JsMap K V) = ∅ := rfl

@[simp] theorem mem_mapValues {map : JsMap K V} {key : K} : key ∈ mapValues f map ↔ key ∈ map := by
  have same : (map.entries.map (mapEntry f)).keys = map.entries.keys :=
    List.map₂_keys (fun _ => f) map.entries
  rw [AList.mem_keys, AList.mem_keys, AList.keys, AList.keys, mapValues, same]

theorem values_mapValues (map : JsMap K V) :
    (mapValues f map).entries.map Sigma.snd = (map.entries.map Sigma.snd).map f := by
  rw [mapValues, List.map_map, List.map_map]
  rfl

variable [DecidableEq K]

@[simp] theorem lookup_mapValues (map : JsMap K V) (key : K) :
    (mapValues f map).lookup key = (map.lookup key).map f :=
  List.dlookup_map₂ key

theorem kreplace_map (entries : List (Sigma fun _ : K => V)) (key : K) (value : V) :
    (List.kreplace key value entries).map (mapEntry f) =
      List.kreplace key (f value) (entries.map (mapEntry f)) := by
  induction entries with
  | nil => rfl
  | cons entry entries ih =>
      obtain ⟨first, old⟩ := entry
      have mapped : mapEntry f (⟨first, old⟩ : Sigma fun _ : K => V) = ⟨first, f old⟩ := rfl
      rw [List.map_cons, mapped, kreplace_cons, kreplace_cons]
      by_cases here : key = first
      · rw [if_pos here, if_pos here]
        rfl
      · rw [if_neg here, if_neg here, List.map_cons, ih]
        rfl

theorem mapValues_set (map : JsMap K V) (key : K) (value : V) :
    mapValues f (set map key value) = set (mapValues f map) key (f value) := by
  apply AList.ext
  unfold set
  by_cases present : key ∈ map
  · rw [dif_pos present, dif_pos (mem_mapValues.mpr present)]
    exact kreplace_map map.entries key value
  · rw [dif_neg present, dif_neg (mt mem_mapValues.mp present)]
    exact List.map_append

theorem mapValues_erase (map : JsMap K V) (key : K) :
    mapValues f (map.erase key) = (mapValues f map).erase key := by
  apply AList.ext
  have same : (fun entry : Sigma fun _ : K => W => decide (key = entry.1)) ∘ mapEntry f =
      fun entry : Sigma fun _ : K => V => decide (key = entry.1) := rfl
  show (List.kerase key map.entries).map (mapEntry f) =
    List.kerase key (map.entries.map (mapEntry f))
  rw [List.kerase, List.kerase, List.eraseP_map, same]

end MapValues

end Smmboss.Client.JsMap
