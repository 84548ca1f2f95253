import TaskPlatform.CachedReads
import TaskPlatform.ListCacheKeys
import TaskPlatform.PatternScan
import TaskPlatform.TaskTenancy

/-! # Which lists an invalidation takes out

    A write to the tasks of a project deletes the keys that match `getListCachePattern`.
    The free texts of a query stand behind the part of the key that the pattern fixes, so
    they make no difference, and ids without a colon keep the keys of other projects and of
    the other families away from it.

    `CacheService.delPattern` finds the keys by a scan and deletes them batch by batch;
    `PatternScan` is its loop. -/

namespace PlatformApi

open PlatformEntities PlatformTasks GlobPattern EventRuns PatternScan

/-- An id as it stands in a key: no colon, and no character that a pattern reads. -/
structure KeyPart (s : String) : Prop where
  noColon : NoColon s
  plain : Plain s

instance (id : String) : Decidable (NoColon id) :=
  inferInstanceAs (Decidable (':' ∉ id.toList))

theorem underWorkspace_append (a x y : String) :
    underWorkspace a x ++ y = underWorkspace a (x ++ y) := by
  apply String.toList_injective
  simp only [underWorkspace, String.toList_append, List.append_assoc]

/-- What the pattern fixes. -/
theorem pattern_place (w p : String) :
    "workspace:" ++ w ++ ":project:" ++ p ++ ":tasks:"
      = underWorkspace w ("project:" ++ p ++ ":tasks:") := by
  apply String.toList_injective
  simp only [underWorkspace, String.toList_append, List.append_assoc]
  rfl

/-- The keys that match are those that begin so. -/
theorem pattern_matches_iff {w p : String} (hw : Plain w) (hp : Plain p) (key : String) :
    globMatch (getListCachePattern w p) key = true ↔
      ∃ rest, key = underWorkspace w ("project:" ++ (p ++ (":tasks:" ++ rest))) := by
  have htext : Plain ("workspace:" ++ w ++ ":project:" ++ p ++ ":tasks:") := by
    have h₁ : Plain "workspace:" := by decide
    have h₂ : Plain ":project:" := by decide
    have h₃ : Plain ":tasks:" := by decide
    exact (((h₁.append hw).append h₂).append hp).append h₃
  have hplace : ∀ rest : String, underWorkspace w ("project:" ++ p ++ ":tasks:") ++ rest
      = underWorkspace w ("project:" ++ (p ++ (":tasks:" ++ rest))) := by
    intro rest
    rw [underWorkspace_append, String.append_assoc, String.append_assoc]
  rw [getListCachePattern, globMatch_prefix_star htext, pattern_place]
  constructor
  · rintro ⟨rest, hrest⟩
    refine ⟨String.ofList rest, ?_⟩
    rw [← hplace]
    apply String.toList_injective
    rw [String.toList_append, String.toList_ofList, hrest]
  · rintro ⟨rest, rfl⟩
    rw [← hplace, String.toList_append]
    exact List.prefix_append ..

/-! ## The other keys -/

/-- A key of another project, or of another family. -/
inductive OtherKey (w p : String) : String → Prop where
  | tasks (w' p' : String) (q : QueryTaskDto) (hw : KeyPart w') (hp : KeyPart p')
      (h : ¬ (w' = w ∧ p' = p)) : OtherKey w p (getListCacheKey w' p' q)
  | task (id : String) (h : NoColon id) : OtherKey w p (getTaskCacheKey id)
  | workspace (idOrSlug : String) (isSlug : Bool) (h : NoColon idOrSlug) :
      OtherKey w p (getCacheKey idOrSlug isSlug)
  | projects (w' : String) (h : NoColon w') : OtherKey w p (getProjectsCacheKey w')

theorem project_of_place {p p' rest rest' : String} (hp : NoColon p) (hp' : NoColon p')
    (h : "project:" ++ (p' ++ (":tasks:" ++ rest')) = "project:" ++ (p ++ (":tasks:" ++ rest))) :
    p' = p := by
  have h' : ("project:" ++ (p' ++ (":tasks:" ++ rest'))).toList
      = ("project:" ++ (p ++ (":tasks:" ++ rest))).toList := congrArg _ h
  simp only [String.toList_append] at h'
  exact String.toList_injective
    (DelimitedText.before_first hp' hp (List.append_cancel_left h')).1

theorem listKey_in_place (w p : String) (q : QueryTaskDto) :
    ∃ rest, getListCacheKey w p q
      = underWorkspace w ("project:" ++ (p ++ (":tasks:" ++ rest))) := by
  obtain ⟨rest, hrest⟩ := listKey_split w p q
  refine ⟨rest, ?_⟩
  rw [hrest, pattern_place, underWorkspace_append, String.append_assoc, String.append_assoc]

theorem OtherKey.not_place {w p key : String} (hw : KeyPart w) (hp : KeyPart p)
    (h : OtherKey w p key) (rest : String) :
    key ≠ underWorkspace w ("project:" ++ (p ++ (":tasks:" ++ rest))) := by
  intro hkey
  cases h with
  | tasks w' p' q hw' hp' hother =>
      obtain ⟨rest', hrest'⟩ := listKey_in_place w' p' q
      rw [hrest'] at hkey
      obtain ⟨hworkspace, hproject⟩ := underWorkspace_inj hw'.noColon hw.noColon hkey
      exact hother ⟨hworkspace, project_of_place hp.noColon hp'.noColon hproject⟩
  | task id hid => exact taskKey_ne_underWorkspace id _ _ hkey
  | workspace idOrSlug isSlug hid =>
      -- what stands behind `id:` or `slug:` has no colon
      rw [workspaceKey_place] at hkey
      have hrest := (underWorkspace_inj (word_colon isSlug) hw.noColon hkey).2
      apply hid
      rw [hrest, String.toList_append]
      exact List.mem_append_left _ (by decide)
  | projects w' hw' =>
      rw [projectsKey_place] at hkey
      exact projects_ne_project _ (underWorkspace_inj hw' hw.noColon hkey).2

theorem OtherKey.not_matches {w p key : String} (hw : KeyPart w) (hp : KeyPart p)
    (h : OtherKey w p key) : globMatch (getListCachePattern w p) key = false := by
  rw [← Bool.not_eq_true, pattern_matches_iff hw.plain hp.plain]
  rintro ⟨rest, hkey⟩
  exact h.not_place hw hp rest hkey

/-! ## What `delPattern` does -/

/-- **List invalidation is exact.**  For ids without colons and special characters: the
    pattern matches the key of every query of the project, and no other key; and
    `delPattern`, however the scan is cut into batches and whatever keys others delete or
    overwrite meanwhile, leaves no list of the project behind and makes no difference to
    any other key. -/
theorem list_invalidation_exact {w p : String} (hw : KeyPart w) (hp : KeyPart p) :
    (∀ q, globMatch (getListCachePattern w p) (getListCacheKey w p q) = true) ∧
      (∀ key, OtherKey w p key → globMatch (getListCachePattern w p) key = false) ∧
      ∀ (s : Scan String CacheValue) (during after : List (Event String CacheValue)),
        FullScan (globMatch (getListCachePattern w p)) s during after →
        Throughout scanStep AddsNone s (during ++ after) →
        (∀ q, (play scanStep s (during ++ after)).store (getListCacheKey w p q) = none) ∧
          ∀ key, OtherKey w p key →
            (play scanStep s (during ++ after)).store key
              = (play scanStep s ((during ++ after).filter Event.foreign)).store key := by
  have hlists : ∀ q, globMatch (getListCachePattern w p) (getListCacheKey w p q) = true :=
    pattern_matches_key hw.plain hp.plain
  refine ⟨hlists, fun key hkey => hkey.not_matches hw hp, ?_⟩
  intro s during after hscan hadds
  refine ⟨fun q => hscan.removes hadds (hlists q), ?_⟩
  intro key hkey
  exact play_scanStep_of_not_matching (Matching.of_idle hscan.idle hscan.matching)
    (hkey.not_matches hw hp)

/-- Two lists of `p1`, one of `p2` and a task. -/
def cachedLists : Scan String CacheValue where
  store := fun key =>
    if key ∈ [getListCacheKey "w" "p1" allTasks, getListCacheKey "w" "p1" doneByBob,
        getListCacheKey "w" "p2" allTasks, getTaskCacheKey "t"] then
      some (.projects [])
    else none
  waiting := []
  stopped := false

/-- The scan comes back three times, once with nothing; the task expires meanwhile. -/
def threeReplies : List (Event String CacheValue) :=
  [.batch [getListCacheKey "w" "p1" allTasks], .batch [], .loop, .del (getTaskCacheKey "t"),
    .batch [getListCacheKey "w" "p1" doneByBob]]

theorem w_keyPart : KeyPart "w" := ⟨by decide, by decide⟩

theorem p1_keyPart : KeyPart "p1" := ⟨by decide, by decide⟩

theorem threeReplies_fullScan :
    FullScan (globMatch (getListCachePattern "w" "p1")) cachedLists threeReplies
      [.loop, .loop] := by
  refine ⟨rfl, ?_, ?_, rfl, rfl⟩
  · intro keys hkeys k hk
    simp only [threeReplies, List.cons_append, List.nil_append, List.mem_cons, reduceCtorEq,
      Event.batch.injEq, List.not_mem_nil, or_false, false_or] at hkeys
    rcases hkeys with rfl | rfl | rfl
    · rw [List.mem_singleton.mp hk]
      exact pattern_matches_key w_keyPart.plain p1_keyPart.plain _
    · exact absurd hk List.not_mem_nil
    · rw [List.mem_singleton.mp hk]
      exact pattern_matches_key w_keyPart.plain p1_keyPart.plain _
  · intro k hk halways
    have hstored : k ∈ [getListCacheKey "w" "p1" allTasks, getListCacheKey "w" "p1" doneByBob,
        getListCacheKey "w" "p2" allTasks, getTaskCacheKey "t"] := by
      by_contra hnot
      exact halways.head (if_neg hnot)
    simp only [List.mem_cons, List.not_mem_nil, or_false] at hstored
    rcases hstored with rfl | rfl | rfl | rfl
    · exact ⟨_, List.mem_cons_self .., List.mem_singleton_self _⟩
    · exact ⟨[getListCacheKey "w" "p1" doneByBob], by simp [threeReplies], by simp⟩
    · have hother : OtherKey "w" "p1" (getListCacheKey "w" "p2" allTasks) :=
        .tasks "w" "p2" allTasks w_keyPart ⟨by decide, by decide⟩ (by decide)
      rw [hother.not_matches w_keyPart p1_keyPart] at hk
      cases hk
    · rw [(OtherKey.task "t" (by decide)).not_matches w_keyPart p1_keyPart] at hk
      cases hk

theorem list_invalidation_threeReplies :
    (∀ q, (play scanStep cachedLists (threeReplies ++ [.loop, .loop])).store
        (getListCacheKey "w" "p1" q) = none) ∧
      ∀ key, OtherKey "w" "p1" key →
        (play scanStep cachedLists (threeReplies ++ [.loop, .loop])).store key
          = (play scanStep cachedLists
            ((threeReplies ++ [Event.loop, Event.loop]).filter Event.foreign)).store key :=
  (list_invalidation_exact w_keyPart p1_keyPart).2.2 cachedLists threeReplies [.loop, .loop]
    threeReplies_fullScan
    ⟨trivial, trivial, trivial, trivial, trivial, trivial, trivial, trivial⟩

/-- Where nobody else uses Redis, the loop does what the model of a task call has for it:
    it deletes the matching keys in one step. -/
theorem fullScan_eq_exec (pg : PostgresText) (ω : Choice) (s : TaskState) (pattern : String)
    {during after : List (Event String CacheValue)}
    (h : FullScan (globMatch pattern) ⟨(s.wait ω).cache, [], false⟩ during after)
    (halone : ∀ e ∈ during ++ after, e.foreign = false) :
    (play scanStep ⟨(s.wait ω).cache, [], false⟩ (during ++ after)).store
      = (exec pg ω (.cacheDelPattern pattern) s).1.cache :=
  h.alone halone

end PlatformApi
