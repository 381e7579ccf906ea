import Tanpopo.Download.Requests
/-!
# Names below the model directory

`SafeJoin` accepts a name that climbs out of the base and comes back. Such a
name may lead to the base itself, or where another name leads.
`safeJoin_strict_iff` says for which names neither happens.
-/

namespace Tanpopo.Download

open Go

variable {getwd : Except String String} {base base' relative target : String} {names : List String}

/-- What is promised of an accepted name: a place below the base that a plain name leads to. -/
def ContainedStrictly (getwd : Except String String) (base target : String) : Prop :=
  ∃ base' inner, absPath getwd base = .ok base' ∧ Below (absNames base') (absNames target) ∧
    (∀ part ∈ split inner '/', IsName part) ∧ target = pathJoin base' inner ∧ safeJoin getwd base inner = .ok target

/-- A name that climbs out of the base, names again what it climbed out of and stops there. -/
def LeadsBack (names : List String) (relative : String) : Prop :=
  0 < climbs relative ∧ descent relative = names.drop (names.length - climbs relative)

/-- A name that climbs further than another, names again the directories between and goes on as the other does. -/
def Detour (names : List String) (relative other : String) : Prop :=
  climbs other < climbs relative ∧
    descent relative = (names.take (names.length - climbs other)).drop (names.length - climbs relative) ++ descent other

instance (names : List String) (relative : String) : Decidable (LeadsBack names relative) :=
  inferInstanceAs (Decidable (_ ∧ _))

instance (names : List String) (relative other : String) : Decidable (Detour names relative other) :=
  inferInstanceAs (Decidable (_ ∧ _))

/-! ## Cleaned names -/

/-- The elements that cleaning leaves. -/
def cleanedElements (relative : String) : List String := walk false [] (split relative '/')

theorem cleanedElements_eq (relative : String) :
    cleanedElements relative = List.replicate (climbs relative) ".." ++ descent relative := by
  have hups : (cleanedElements relative).takeWhile (· = "..") = List.replicate (climbs relative) ".." :=
    List.eq_replicate_iff.mpr ⟨rfl, fun name hname => by simpa using List.mem_takeWhile_imp hname⟩
  rw [← hups]
  exact (List.takeWhile_append_dropWhile (p := (· = ".."))).symm

/-- No cleaned element is empty or a dot. -/
theorem cleanedElements_ne {name : String} (h : name ∈ cleanedElements relative) : name ≠ "" ∧ name ≠ "." :=
  (cleaned_walk (split relative '/')).ne_empty name h

theorem split_join_cleanedElements (h : cleanedElements relative ≠ []) :
    split (join (cleanedElements relative) '/') '/' = cleanedElements relative :=
  split_join_walk (by simp) h

theorem pathClean_relative (h : isAbs relative = false) :
    pathClean relative = if cleanedElements relative = [] then "." else join (cleanedElements relative) '/' := by
  have hrelative : hasPrefix relative "/" = false := h
  have hfold : (split relative '/').foldl (pathCleanStep false) [] = cleanedElements relative := rfl
  rw [pathClean, hrelative, if_neg (by decide), hfold]
  by_cases hnil : cleanedElements relative = []
  · rw [if_pos hnil, hnil]
    decide
  · rw [if_neg hnil, if_neg]
    intro hempty
    have hsplit := split_join_cleanedElements hnil
    rw [hempty, split_empty] at hsplit
    exact (cleanedElements_ne (hsplit ▸ List.mem_singleton_self "")).1 rfl

/-- Two names clean to the same text when they climb as far and then name the same. -/
theorem pathClean_eq_iff {other : String} (h : isAbs relative = false) (hother : isAbs other = false) :
    pathClean relative = pathClean other ↔ climbs relative = climbs other ∧ descent relative = descent other := by
  have hdot : ∀ {name : String}, cleanedElements name ≠ [] → join (cleanedElements name) '/' ≠ "." := by
    intro name hne hdot
    have hsplit := split_join_cleanedElements hne
    rw [hdot, show split "." '/' = ["."] by decide] at hsplit
    exact (cleanedElements_ne (hsplit ▸ List.mem_singleton_self ".")).2 rfl
  have helements : pathClean relative = pathClean other ↔ cleanedElements relative = cleanedElements other := by
    rw [pathClean_relative h, pathClean_relative hother]
    refine ⟨fun heq => ?_, fun heq => by rw [heq]⟩
    split_ifs at heq with hnil hnil' hnil'
    · rw [hnil, hnil']
    · exact absurd heq.symm (hdot hnil')
    · exact absurd heq (hdot hnil)
    · rw [← split_join_cleanedElements hnil, heq, split_join_cleanedElements hnil']
  rw [helements]
  constructor
  · intro heq
    exact ⟨by rw [climbs, climbs]; exact congrArg (fun names => (names.takeWhile (· = "..")).length) heq,
      congrArg (List.dropWhile (· = "..")) heq⟩
  · rintro ⟨hclimbs, hdescent⟩
    rw [cleanedElements_eq, hclimbs, hdescent, cleanedElements_eq]

/-! ## Accepted names -/

/-- What acceptance says, with the elements of the name. -/
structure Accepted (getwd : Except String String) (base relative target base' : String) : Prop
    extends Joined getwd base relative target base' where
  text : target = "/" ++ join (absNames target) '/'
  ne_dot : 0 < climbs relative ∨ descent relative ≠ []

theorem accepted_of_safeJoin (hgetwd : ∀ directory, getwd = .ok directory → isAbs directory = true)
    (h : safeJoin getwd base relative = .ok target) : ∃ base', Accepted getwd base relative target base' := by
  obtain ⟨base', hjoined⟩ := joined_of_safeJoin hgetwd h
  refine ⟨base', hjoined, ?_, ?_⟩
  · unfold safeJoin at h
    dsimp only at h
    rw [hjoined.base] at h
    split_ifs at h
    dsimp only at h
    split_ifs at h
    obtain rfl := Except.ok.inj h
    rw [absNames_pathJoin hjoined.absolute]
    exact pathJoin_abs hjoined.absolute _
  · by_contra hnothing
    obtain ⟨hclimbs, hdescent⟩ := not_or.mp hnothing
    have hnil : cleanedElements relative = [] := by
      rw [cleanedElements_eq, Nat.eq_zero_of_not_pos hclimbs, not_not.mp hdescent]
      rfl
    have hdot : pathClean relative = "." := by rw [pathClean_relative hjoined.not_absolute, if_pos hnil]
    simp only [safeJoin, hdot, true_or, if_true] at h
    split_ifs at h

/-- Where an accepted name leads. -/
theorem Accepted.leads (h : Accepted getwd base relative target base') :
    absNames target =
      (absNames base').take ((absNames base').length - climbs relative) ++ descent relative := by
  rw [h.names, walk_split isName_of_mem_absNames]

theorem Accepted.leads_to_base_iff (h : Accepted getwd base relative target base') :
    absNames target = absNames base' ↔ LeadsBack (absNames base') relative := by
  rw [h.leads]
  constructor
  · intro heq
    have hdescent : descent relative = (absNames base').drop ((absNames base').length - climbs relative) := by
      refine List.append_cancel_left (heq.trans ?_)
      rw [List.take_append_drop]
    refine ⟨Nat.pos_of_ne_zero fun hzero => ?_, hdescent⟩
    rw [hzero, Nat.sub_zero, List.drop_length] at hdescent
    exact h.ne_dot.elim (fun hpos => absurd hzero hpos.ne') (fun hne => hne hdescent)
  · rintro ⟨_, hdescent⟩
    rw [hdescent, List.take_append_drop]

theorem Accepted.contained_iff (h : Accepted getwd base relative target base') (hbase : trimSpace base ≠ "") :
    ContainedStrictly getwd base target ↔ ¬ LeadsBack (absNames base') relative := by
  rw [← h.leads_to_base_iff]
  constructor
  · rintro ⟨base'', inner, hbase'', hbelow, -⟩ heq
    obtain rfl := Except.ok.inj (h.base.symm.trans hbase'')
    exact hbelow.2 heq.symm
  · intro hne
    obtain ⟨rest, hrest⟩ := h.inside
    have hne' : rest ≠ [] := by
      rintro rfl
      exact hne (by rw [← hrest, List.append_nil])
    have hinner : Inner rest := inner_of_absNames hrest.symm hne'
    have htarget : target = pathJoin base' (join rest '/') := by
      rw [pathJoin_abs h.absolute, hinner.walk, hrest]
      exact h.text
    refine ⟨base', join rest '/', h.base, ⟨h.inside, fun heq => hne heq.symm⟩, ?_, htarget, ?_⟩
    · rw [hinner.split_join]
      exact hinner.isName
    · have hrel : pathRel base' target = join rest '/' := by rw [pathRel_below hrest.symm, if_neg hne']
      have hclean : ¬ (join rest '/' = "." ∨ isAbs (join rest '/') = true) := fun hor =>
        hor.elim hinner.ne_dot fun habs => by rw [hinner.not_abs] at habs; cases habs
      have hstays : ¬ (join rest '/' = ".." ∨ hasPrefix (join rest '/') "../" = true) := fun hor =>
        hor.elim hinner.not_dotdot.1 fun hup => by rw [hinner.not_dotdot.2] at hup; cases hup
      simp only [safeJoin, hinner.pathClean, h.base, ← htarget, hrel]
      rw [if_neg hbase, if_neg hclean, if_neg hstays]

/-- Two accepted names that lead to one place climb equally far, or one is a detour. -/
theorem Accepted.same_iff {other target' : String} (h : Accepted getwd base relative target base')
    (h' : Accepted getwd base other target' base') :
    (target = target' → pathClean relative = pathClean other) ↔
      ¬ Detour (absNames base') relative other ∧ ¬ Detour (absNames base') other relative := by
  have htext : target = target' ↔ absNames target = absNames target' :=
    ⟨fun heq => by rw [heq], fun heq => by rw [h.text, h'.text, heq]⟩
  have hdetour : ∀ {a b s t : String}, Accepted getwd base a s base' → Accepted getwd base b t base' →
      climbs b < climbs a → (absNames s = absNames t ↔ Detour (absNames base') a b) := by
    intro a b s t ha hb hlt
    have hsplit : (absNames base').take ((absNames base').length - climbs b) =
        (absNames base').take ((absNames base').length - climbs a) ++
          ((absNames base').take ((absNames base').length - climbs b)).drop ((absNames base').length - climbs a) := by
      conv_lhs => rw [← List.take_append_drop ((absNames base').length - climbs a)
        ((absNames base').take ((absNames base').length - climbs b)), List.take_take]
      rw [min_eq_left (by omega)]
    rw [ha.leads, hb.leads, hsplit, List.append_assoc, List.append_cancel_left_eq, Detour]
    exact ⟨fun heq => ⟨hlt, heq⟩, And.right⟩
  rw [htext, pathClean_eq_iff h.not_absolute h'.not_absolute]
  constructor
  · intro hsame
    constructor
    · intro hd
      exact absurd (hsame ((hdetour h h' hd.1).mpr hd)).1 hd.1.ne'
    · intro hd
      exact absurd (hsame ((hdetour h' h hd.1).mpr hd).symm).1 hd.1.ne
  · rintro ⟨hno, hno'⟩ heq
    rcases lt_trichotomy (climbs relative) (climbs other) with hlt | hclimbs | hlt
    · exact absurd ((hdetour h' h hlt).mp heq.symm) hno'
    · rw [h.leads, h'.leads, hclimbs, List.append_cancel_left_eq] at heq
      exact ⟨hclimbs, heq⟩
    · exact absurd ((hdetour h h' hlt).mp heq) hno

/-- Two accepted names are contained strictly and lead to different places unless they clean alike, exactly when neither
leads back to the base and neither is a detour to where the other leads. -/
theorem safeJoin_strict_iff (getwd : Except String String)
    (hgetwd : ∀ directory, getwd = .ok directory → isAbs directory = true) (base base' relative other target target' : String)
    (hbase : absPath getwd base = .ok base') (h : safeJoin getwd base relative = .ok target)
    (h' : safeJoin getwd base other = .ok target') :
    (ContainedStrictly getwd base target ∧ ContainedStrictly getwd base target' ∧
        (target = target' → pathClean relative = pathClean other)) ↔
      ¬ LeadsBack (absNames base') relative ∧ ¬ LeadsBack (absNames base') other ∧
        ¬ Detour (absNames base') relative other ∧ ¬ Detour (absNames base') other relative := by
  obtain ⟨found, haccepted⟩ := accepted_of_safeJoin hgetwd h
  obtain ⟨found', haccepted'⟩ := accepted_of_safeJoin hgetwd h'
  obtain rfl := Except.ok.inj (haccepted.base.symm.trans hbase)
  obtain rfl := Except.ok.inj (haccepted'.base.symm.trans hbase)
  have hnonblank : trimSpace base ≠ "" := by
    intro hblank
    simp [safeJoin, hblank] at h
  rw [haccepted.contained_iff hnonblank, haccepted'.contained_iff hnonblank, haccepted.same_iff haccepted']

/-- A name that leads back to the base is accepted, and gives the base. -/
theorem safeJoin_gives_base :
    safeJoin (.ok "/") "/models" "../models" = .ok "/models" ∧
      ¬ ContainedStrictly (.ok "/") "/models" "/models" := by
  refine ⟨by decide +kernel, ?_⟩
  rintro ⟨base', inner, hbase, hbelow, -⟩
  have hbase' : absPath (.ok "/") "/models" = .ok "/models" := by decide +kernel
  obtain rfl := Except.ok.inj (hbase.symm.trans hbase')
  exact hbelow.2 rfl

theorem plainNames_strict :
    (ContainedStrictly (.ok "/") "/models" "/models/a.gguf" ∧ ContainedStrictly (.ok "/") "/models" "/models/b/c" ∧
        ("/models/a.gguf" = "/models/b/c" → pathClean "a.gguf" = pathClean "b/./c")) ↔
      ¬ LeadsBack (absNames "/models") "a.gguf" ∧ ¬ LeadsBack (absNames "/models") "b/./c" ∧
        ¬ Detour (absNames "/models") "a.gguf" "b/./c" ∧ ¬ Detour (absNames "/models") "b/./c" "a.gguf" :=
  safeJoin_strict_iff (.ok "/") (by rintro _ ⟨⟩; decide) "/models" "/models" "a.gguf" "b/./c" _ _ (by decide +kernel)
    (by decide +kernel) (by decide +kernel)

end Tanpopo.Download
