import TaskPlatform.DelimitedText
import TaskPlatform.TaskService

/-! # The cache keys of task lists

    `getListCacheKey` writes the free texts of a query one behind the other, with a word
    where a text was left out, and `getTasks` serves what it finds under the key.  Two
    queries share a key although the database is asked differently for them when one
    leaves out what the other spells like the word, or when a text holds what stands
    between two texts.  Which queries are free of this is `key_identifies_iff`. -/

namespace PlatformTasks

open PlatformEntities DelimitedText

/-! ## The query that `getTasks` builds -/

/-- The conditions, the order and the page of the query. -/
structure ListQuery where
  workspaceId : String
  projectId : String
  status : Option String
  priority : Option String
  assignedTo : Option String
  search : Option String
  field : SortField
  order : SortOrder
  take : Nat
  skip : Nat
  deriving DecidableEq, Repr

/-- The query that the list service runs. -/
def listQuery (workspaceId projectId : String) (query : QueryTaskDto) : ListQuery where
  workspaceId := workspaceId
  projectId := projectId
  status := truthy query.status
  priority := truthy query.priority
  assignedTo := truthy query.assignedTo
  search := truthy query.search
  field := sortField query.sortBy
  order := query.sortOrder.getD .desc
  take := orDefault query.limit 10
  skip := (orDefault query.page 1 - 1) * orDefault query.limit 10

/-- A query that validation lets through: `page` and `limit` are numbers in their bounds,
    `sortBy` and `sortOrder` have their defaults. -/
structure Accepted (query : QueryTaskDto) : Prop where
  page : ∃ n, query.page = some n ∧ 1 ≤ n
  limit : ∃ n, query.limit = some n ∧ 1 ≤ n ∧ n ≤ 100
  sortBy : query.sortBy.isSome = true
  sortOrder : query.sortOrder.isSome = true

/-- A number that counts as true, or the default. -/
theorem orDefault_pos (n : Option Nat) {d : Nat} (hd : 0 < d) : 0 < orDefault n d := by
  cases n with
  | none => exact hd
  | some m =>
      cases m with
      | zero => exact hd
      | succ m => exact Nat.succ_pos m

/-- Where the database is asked the same, the page is the same. -/
theorem listTasks_of_listQuery {pg : PostgresText} {db : Database} {w p : String}
    {q q' : QueryTaskDto} (h : listQuery w p q = listQuery w p q') :
    listTasks pg db w p q = listTasks pg db w p q' := by
  injection h with _ _ hstatus hpriority hassigned hsearch hfield horder htake hskip
  have hpage : orDefault q.page 1 = orDefault q'.page 1 := by
    rw [htake] at hskip
    have h1 := orDefault_pos q.page Nat.one_pos
    have h2 := orDefault_pos q'.page Nat.one_pos
    have h3 := Nat.eq_of_mul_eq_mul_right (orDefault_pos q'.limit (by decide)) hskip
    omega
  have hfilters : passesFilters pg q = passesFilters pg q' := by
    funext t
    unfold passesFilters
    rw [hstatus, hpriority, hassigned, hsearch]
  have hle : listLe pg q = listLe pg q' := by
    funext a b
    unfold listLe
    rw [horder, hfield]
  unfold listTasks pageOf
  rw [hfilters, hle, htake, hpage]

/-! ## The key -/

/-- The texts of the four filters, as they stand in the key. -/
def filterTexts (query : QueryTaskDto) : List (List Char) :=
  [((truthy query.status).getD "all").toList, ((truthy query.priority).getD "all").toList,
    ((truthy query.assignedTo).getD "all").toList,
    ((truthy query.search).getD "none").toList]

/-- The text of the sort column in the key. -/
def sortText (query : QueryTaskDto) : List Char := (query.sortBy.getD "undefined").toList

/-- What stands behind them. -/
def filterWords : List (List Char) :=
  [":priority:".toList, ":assignee:".toList, ":search:".toList, ":sortBy:".toList]

/-- The filters are all there, and none is spelled like the word for one left out. -/
def Spelled (query : QueryTaskDto) : Prop :=
  (∃ x, truthy query.status = some x ∧ x ≠ "all") ∧
    (∃ x, truthy query.priority = some x ∧ x ≠ "all") ∧
    (∃ x, truthy query.assignedTo = some x ∧ x ≠ "all") ∧
    ∃ x, truthy query.search = some x ∧ x ≠ "none"

/-- The texts in the key can be told apart again in one way only. -/
def ReadsOneWay (query : QueryTaskDto) : Prop :=
  OneReading filterWords (filterTexts query) (sortText query)

theorem showNumber_noColon (n : Option Nat) : ':' ∉ (showNumber n).toList := by
  cases n with
  | none => decide
  | some n =>
      intro h
      have hdigits : ':' ∈ Nat.toDigits 10 n := by
        have hshow : (showNumber (some n)).toList = Nat.toDigits 10 n := by
          simp [showNumber, Nat.repr]
        rw [← hshow]
        exact h
      exact absurd (Nat.isDigit_of_mem_toDigits (by decide) (by decide) hdigits) (by decide)

theorem showNumber_injective {m n : Option Nat} (hm : m.isSome = true)
    (hn : n.isSome = true) (h : showNumber m = showNumber n) : m = n := by
  obtain ⟨m, rfl⟩ := Option.isSome_iff_exists.mp hm
  obtain ⟨n, rfl⟩ := Option.isSome_iff_exists.mp hn
  have hdigits := congrArg (fun ds : String => Nat.ofDigitChars 10 ds.toList 0) h
  simpa [showNumber, Nat.toString_eq_ofList_toDigits] using hdigits

/-- The two directions end in different letters. -/
theorem sortOrder_suffix {a b : List Char} {o o' : SortOrder}
    (h : a ++ (":sortOrder:".toList ++ o.text.toList)
      = b ++ (":sortOrder:".toList ++ o'.text.toList)) : a = b ∧ o = o' := by
  have hthird := congrArg (fun l : List Char => l.reverse[2]?) h
  simp only [List.reverse_append] at hthird
  cases o with
  | asc =>
      cases o' with
      | asc => exact ⟨List.append_cancel_right h, rfl⟩
      | desc =>
          have hletter : some 'A' = some 'E' := hthird
          exact absurd hletter (by decide)
  | desc =>
      cases o' with
      | asc =>
          have hletter : some 'E' = some 'A' := hthird
          exact absurd hletter (by decide)
      | desc => exact ⟨List.append_cancel_right h, rfl⟩

/-- The parts of a key. -/
theorem listKey_eq (w p : String) (q : QueryTaskDto) :
    (getListCacheKey w p q).toList
      = ("workspace:" ++ w ++ ":project:" ++ p ++ ":tasks:" ++ "page:").toList ++
        ((showNumber q.page).toList ++ ':' :: ("limit:".toList ++
          ((showNumber q.limit).toList ++ ':' :: ("status:".toList ++
            (join filterWords (filterTexts q) (sortText q) ++ (":sortOrder:".toList ++
              ((q.sortOrder.map SortOrder.text).getD "undefined").toList)))))) := by
  simp only [getListCacheKey, String.toList_append, List.append_assoc, filterTexts, sortText,
    filterWords, join]
  rfl

/-- **What a key tells.**  Two accepted queries share a key exactly when page, limit and
    direction are the same and the texts make the same text. -/
theorem listKey_eq_iff {w p : String} {q q' : QueryTaskDto} (hq : Accepted q)
    (hq' : Accepted q') :
    getListCacheKey w p q = getListCacheKey w p q' ↔
      q.page = q'.page ∧ q.limit = q'.limit ∧ q.sortOrder = q'.sortOrder ∧
        join filterWords (filterTexts q) (sortText q)
          = join filterWords (filterTexts q') (sortText q') := by
  obtain ⟨o, ho⟩ := Option.isSome_iff_exists.mp hq.sortOrder
  obtain ⟨o', ho'⟩ := Option.isSome_iff_exists.mp hq'.sortOrder
  have hsome : ∀ {n : Option Nat}, (∃ k, n = some k ∧ 1 ≤ k) → n.isSome = true := by
    rintro n ⟨k, rfl, -⟩
    rfl
  constructor
  · intro h
    have h' := congrArg String.toList h
    rw [listKey_eq, listKey_eq] at h'
    -- numbers hold no colon, so page and limit end at the first one
    obtain ⟨hpage, h'⟩ := before_first (showNumber_noColon _) (showNumber_noColon _)
      (List.append_cancel_left h')
    obtain ⟨hlimit, h'⟩ := before_first (showNumber_noColon _) (showNumber_noColon _)
      (List.append_cancel_left h')
    have h' := List.append_cancel_left h'
    rw [ho, ho'] at h'
    -- the direction is read from the end
    obtain ⟨htexts, horder⟩ := sortOrder_suffix h'
    obtain ⟨n, hn, hn1, -⟩ := hq.limit
    obtain ⟨n', hn', hn1', -⟩ := hq'.limit
    refine ⟨showNumber_injective (hsome hq.page) (hsome hq'.page)
      (String.toList_injective hpage), showNumber_injective (hsome ⟨n, hn, hn1⟩)
      (hsome ⟨n', hn', hn1'⟩) (String.toList_injective hlimit), ?_, htexts⟩
    rw [ho, ho', horder]
  · rintro ⟨hpage, hlimit, horder, htexts⟩
    apply String.toList_injective
    rw [listKey_eq, listKey_eq, hpage, hlimit, horder, htexts]

/-! ## Keys and queries -/

/-- A filter text that is not the word for one left out gives the filter back. -/
theorem truthy_eq_of_text {o o' : Option String} {x word : String} (h : truthy o = some x)
    (hword : x ≠ word)
    (htext : ((truthy o').getD word).toList = ((truthy o).getD word).toList) :
    truthy o' = truthy o := by
  have htext' : (truthy o').getD word = x := by
    rw [String.toList_injective htext, h]
    rfl
  cases ho' : truthy o' with
  | none =>
      rw [ho'] at htext'
      exact absurd htext'.symm hword
  | some y =>
      rw [ho'] at htext'
      have hy : y = x := htext'
      rw [h, hy]

/-- A text that was left out is written as a word, and so is never empty. -/
theorem text_ne_nil (o : Option String) {word : String} (hword : word ≠ "") :
    ((truthy o).getD word).toList ≠ [] := by
  intro h
  have hempty : (truthy o).getD word = "" := String.toList_injective h
  cases o with
  | none => exact hword hempty
  | some x =>
      by_cases hx : x = ""
      · rw [truthy, if_pos hx] at hempty
        exact hword hempty
      · rw [truthy, if_neg hx] at hempty
        exact hx hempty

theorem truthy_ofList {l : List Char} (hl : l ≠ []) :
    truthy (some (String.ofList l)) = some (String.ofList l) := by
  have hne : String.ofList l ≠ "" := by
    intro h
    apply hl
    have h' := congrArg String.toList h
    rw [String.toList_ofList] at h'
    exact h'
  rw [truthy, if_neg hne]

/-- Where the texts are spelled out and read one way, the key gives the query back. -/
theorem listQuery_of_key {w p : String} {q q' : QueryTaskDto} (hq : Accepted q)
    (hq' : Accepted q') (hspelled : Spelled q) (hreads : ReadsOneWay q)
    (h : getListCacheKey w p q = getListCacheKey w p q') :
    listQuery w p q = listQuery w p q' := by
  obtain ⟨⟨s, hs, hsw⟩, ⟨r, hr, hrw⟩, ⟨a, ha, haw⟩, ⟨x, hx, hxw⟩⟩ := hspelled
  obtain ⟨hpage, hlimit, horder, htexts⟩ := (listKey_eq_iff hq hq').mp h
  have hfull : ∀ t ∈ filterTexts q', t ≠ [] := by
    intro t ht
    simp only [filterTexts, List.mem_cons, List.not_mem_nil, or_false] at ht
    rcases ht with rfl | rfl | rfl | rfl
    · exact text_ne_nil _ (by decide)
    · exact text_ne_nil _ (by decide)
    · exact text_ne_nil _ (by decide)
    · exact text_ne_nil _ (by decide)
  -- the texts of `q'` are a reading of the key, and there is only one
  obtain ⟨hfilters, hsort⟩ := hreads (filterTexts q') (sortText q') rfl hfull htexts.symm
  simp only [filterTexts, List.cons.injEq, and_true] at hfilters
  obtain ⟨hstatus, hpriority, hassigned, hsearch⟩ := hfilters
  have hfield : sortField q'.sortBy = sortField q.sortBy := by
    obtain ⟨b, hb⟩ := Option.isSome_iff_exists.mp hq.sortBy
    obtain ⟨b', hb'⟩ := Option.isSome_iff_exists.mp hq'.sortBy
    have hsame : b' = b := by
      rw [sortText, sortText, hb, hb'] at hsort
      exact String.toList_injective hsort
    rw [hb, hb', hsame]
  unfold listQuery
  rw [truthy_eq_of_text hs hsw hstatus, truthy_eq_of_text hr hrw hpriority,
    truthy_eq_of_text ha haw hassigned, truthy_eq_of_text hx hxw hsearch, hfield, hpage,
    hlimit, horder]

/-- A filter that is left out, or spelled like the word for it, has a double: the text in
    the key is the same, and the condition is not. -/
theorem exists_double {o : Option String} {word : String} (hword : word ≠ "")
    (h : ¬ ∃ x, truthy o = some x ∧ x ≠ word) :
    ∃ o', (truthy o').getD word = (truthy o).getD word ∧ truthy o' ≠ truthy o := by
  cases ho : truthy o with
  | none =>
      refine ⟨some word, ?_, ?_⟩
      · rw [truthy, if_neg hword]
        rfl
      · rw [truthy, if_neg hword]
        simp
  | some x =>
      have hx : x = word := by
        by_contra hne
        exact h ⟨x, ho, hne⟩
      exact ⟨none, hx.symm, by simp [truthy]⟩

/-- Where every query with the same key asks the same, the texts are spelled out. -/
theorem spelled_of_identifies {w p : String} {q : QueryTaskDto} (hq : Accepted q)
    (h : ∀ q', Accepted q' → getListCacheKey w p q = getListCacheKey w p q' →
      listQuery w p q = listQuery w p q') : Spelled q := by
  refine ⟨?_, ?_, ?_, ?_⟩
  · by_contra hno
    obtain ⟨o, htext, hne⟩ := exists_double (by decide) hno
    have hsame := h { q with status := o } ⟨hq.page, hq.limit, hq.sortBy, hq.sortOrder⟩
      (by rw [getListCacheKey, getListCacheKey, htext])
    exact hne (congrArg ListQuery.status hsame).symm
  · by_contra hno
    obtain ⟨o, htext, hne⟩ := exists_double (by decide) hno
    have hsame := h { q with priority := o } ⟨hq.page, hq.limit, hq.sortBy, hq.sortOrder⟩
      (by rw [getListCacheKey, getListCacheKey, htext])
    exact hne (congrArg ListQuery.priority hsame).symm
  · by_contra hno
    obtain ⟨o, htext, hne⟩ := exists_double (by decide) hno
    have hsame := h { q with assignedTo := o } ⟨hq.page, hq.limit, hq.sortBy, hq.sortOrder⟩
      (by rw [getListCacheKey, getListCacheKey, htext])
    exact hne (congrArg ListQuery.assignedTo hsame).symm
  · by_contra hno
    obtain ⟨o, htext, hne⟩ := exists_double (by decide) hno
    have hsame := h { q with search := o } ⟨hq.page, hq.limit, hq.sortBy, hq.sortOrder⟩
      (by rw [getListCacheKey, getListCacheKey, htext])
    exact hne (congrArg ListQuery.search hsame).symm

/-- And they can be read in one way only. -/
theorem readsOneWay_of_identifies {w p : String} {q : QueryTaskDto} (hq : Accepted q)
    (hspelled : Spelled q)
    (h : ∀ q', Accepted q' → getListCacheKey w p q = getListCacheKey w p q' →
      listQuery w p q = listQuery w p q') : ReadsOneWay q := by
  intro parts last hlength hfull htext
  obtain ⟨⟨s, hs, -⟩, ⟨r, hr, -⟩, ⟨a, ha, -⟩, ⟨x, hx, -⟩⟩ := hspelled
  match parts, hlength, hfull, htext with
  | [s', r', a', x'], _, hfull, htext =>
    have hs' := truthy_ofList (hfull s' (by simp))
    have hr' := truthy_ofList (hfull r' (by simp))
    have ha' := truthy_ofList (hfull a' (by simp))
    have hx' := truthy_ofList (hfull x' (by simp))
    -- the query that is read another way
    let q' : QueryTaskDto :=
      { q with
        status := some (String.ofList s')
        priority := some (String.ofList r')
        assignedTo := some (String.ofList a')
        search := some (String.ofList x')
        sortBy := some (String.ofList last) }
    have hq' : Accepted q' := ⟨hq.page, hq.limit, rfl, hq.sortOrder⟩
    have hfilters : filterTexts q' = [s', r', a', x'] := by
      show [((truthy (some (String.ofList s'))).getD "all").toList, _, _, _] = _
      rw [hs', hr', ha', hx']
      simp
    have hsort : sortText q' = last := String.toList_ofList ..
    have hkey : getListCacheKey w p q = getListCacheKey w p q' := by
      rw [listKey_eq_iff hq hq']
      refine ⟨rfl, rfl, rfl, ?_⟩
      rw [hfilters, hsort, htext]
    have hsame := h q' hq' hkey
    have hstatus : truthy q.status = some (String.ofList s') :=
      (congrArg ListQuery.status hsame).trans hs'
    have hpriority : truthy q.priority = some (String.ofList r') :=
      (congrArg ListQuery.priority hsame).trans hr'
    have hassigned : truthy q.assignedTo = some (String.ofList a') :=
      (congrArg ListQuery.assignedTo hsame).trans ha'
    have hsearch : truthy q.search = some (String.ofList x') :=
      (congrArg ListQuery.search hsame).trans hx'
    have hparts : [s', r', a', x'] = filterTexts q := by
      rw [filterTexts, hstatus, hpriority, hassigned, hsearch]
      simp
    refine ⟨hparts, ?_⟩
    rw [hparts] at htext
    simpa [join, filterTexts, filterWords] using htext

/-- **When a key identifies the query.**  For every workspace, project and accepted query:
    all accepted queries with its key are asked of the database in the same way exactly
    when its filters are spelled out and its texts can be told apart in one way. -/
theorem key_identifies_iff (w p : String) (q : QueryTaskDto) (hq : Accepted q) :
    (∀ q', Accepted q' → getListCacheKey w p q = getListCacheKey w p q' →
      listQuery w p q = listQuery w p q') ↔ Spelled q ∧ ReadsOneWay q := by
  constructor
  · intro h
    have hspelled := spelled_of_identifies hq h
    exact ⟨hspelled, readsOneWay_of_identifies hq hspelled h⟩
  · rintro ⟨hspelled, hreads⟩ q' hq' hkey
    exact listQuery_of_key hq hq' hspelled hreads hkey

/-- Texts without a colon can be told apart. -/
theorem readsOneWay_of_noColon {q : QueryTaskDto} (hfilters : ∀ t ∈ filterTexts q, ':' ∉ t)
    (hsort : ':' ∉ sortText q) : ReadsOneWay q := by
  refine oneReading_of_free ?_ rfl hfilters hsort
  intro word hword
  simp only [filterWords, List.mem_cons, List.not_mem_nil, or_false] at hword
  rcases hword with rfl | rfl | rfl | rfl
  · exact ⟨_, rfl⟩
  · exact ⟨_, rfl⟩
  · exact ⟨_, rfl⟩
  · exact ⟨_, rfl⟩

/-- In particular the key identifies the query where the filters are spelled out and no text
    holds a colon. -/
theorem key_identifies_of_noColon (w p : String) {q q' : QueryTaskDto} (hq : Accepted q)
    (hspelled : Spelled q) (hfilters : ∀ t ∈ filterTexts q, ':' ∉ t)
    (hsort : ':' ∉ sortText q)
    (hq' : Accepted q') (hkey : getListCacheKey w p q = getListCacheKey w p q') :
    listQuery w p q = listQuery w p q' :=
  listQuery_of_key hq hq' hspelled (readsOneWay_of_noColon hfilters hsort) hkey

/-- A query with every filter. -/
def doneByBob : QueryTaskDto :=
  ⟨some 1, some 10, some "DONE", some "HIGH", some "b", some "setup", some "title", some .asc⟩

theorem doneByBob_accepted : Accepted doneByBob :=
  ⟨⟨1, rfl, by decide⟩, ⟨10, rfl, by decide, by decide⟩, rfl, rfl⟩

theorem doneByBob_spelled : Spelled doneByBob :=
  ⟨⟨_, rfl, by decide⟩, ⟨_, rfl, by decide⟩, ⟨_, rfl, by decide⟩,
    ⟨_, rfl, by decide⟩⟩

theorem key_identifies_doneByBob :
    Accepted { doneByBob with status := some "TODO" } ∧
      getListCacheKey "w" "p" doneByBob
        ≠ getListCacheKey "w" "p" { doneByBob with status := some "TODO" } := by
  have hother : Accepted { doneByBob with status := some "TODO" } :=
    ⟨⟨1, rfl, by decide⟩, ⟨10, rfl, by decide, by decide⟩, rfl, rfl⟩
  refine ⟨hother, fun hkey => ?_⟩
  have hsame := (key_identifies_iff "w" "p" doneByBob doneByBob_accepted).mpr
    ⟨doneByBob_spelled, readsOneWay_of_noColon (by decide) (by decide)⟩ _ hother hkey
  exact absurd hsame (by decide)

/-- The query as a client sends it without any filter. -/
def allTasks : QueryTaskDto :=
  ⟨some 1, some 10, none, none, none, none, some "createdAt", some .desc⟩

/-- All tasks, and the tasks with the status `all`; and a text that holds what stands
    between two texts. -/
theorem keys_collide :
    Accepted allTasks ∧ Accepted { allTasks with status := some "all" } ∧
      getListCacheKey "w" "p" allTasks
        = getListCacheKey "w" "p" { allTasks with status := some "all" } ∧
      listQuery "w" "p" allTasks ≠ listQuery "w" "p" { allTasks with status := some "all" } ∧
      getListCacheKey "w" "p" { allTasks with status := some "DONE:priority:LOW" }
        = getListCacheKey "w" "p"
          { allTasks with status := some "DONE", priority := some "LOW:priority:all" } ∧
      listQuery "w" "p" { allTasks with status := some "DONE:priority:LOW" }
        ≠ listQuery "w" "p"
          { allTasks with status := some "DONE", priority := some "LOW:priority:all" } :=
  ⟨⟨⟨1, rfl, by decide⟩, ⟨10, rfl, by decide, by decide⟩, rfl, rfl⟩,
    ⟨⟨1, rfl, by decide⟩, ⟨10, rfl, by decide, by decide⟩, rfl, rfl⟩,
    by decide, by decide, by decide, by decide⟩

end PlatformTasks
