import Interocitor.Adapters.Markup
import Interocitor.Core.Numbers

/-!
# `s3.ts`: listing a folder

`S3Adapter.listFiles` asks for the objects under a key prefix, page by page.  A page names its
objects in `Contents` elements, and if it is truncated, it has a token for the next one.  The
adapter keeps what is a direct child of the folder, by name.

What a store answers is a parameter.  An `Answer` is what a correct store has to say to a
listing, as documents: pages whose entries together name each object under the prefix once,
in any order and cut anywhere, and whose tokens lead from one to the next.  How a document is
written is left to the store, as long as it is markup that spells the ampersand by its name
(as S3 does): which other elements there are, the space between them, and how each unit of a
key is spelled.

* `listPage`, `listFrom`, `listFiles`: the adapter.
* `listPage_text`: what the adapter reads from a page is what the page says, except that keys
  are trimmed.
* `listFrom_pages`: all pages are read, or the listing fails.
* `listFiles_failsOrExact_iff`: unless a request fails, the listing is exact if and only if no
  direct child has a blank at an end of its key that is spelled by itself.
-/

namespace Interocitor

/-- `FileEntry`. -/
structure FileEntry where
  name : CodeUnits.Text
  path : CodeUnits.Text
  size : JsNumber
  modifiedTime : CodeUnits.Text
  etag : Option CodeUnits.Text
  deriving DecidableEq

namespace S3

open CodeUnits OrderedRecord List Option

/-! ## Names of elements -/

/-- `"ListBucketResult"`. -/
def listBucketResult : Text :=
  [76, 105, 115, 116, 66, 117, 99, 107, 101, 116, 82, 101, 115, 117, 108, 116]

/-- `"Contents"`. -/
def contentsName : Text := [67, 111, 110, 116, 101, 110, 116, 115]

/-- `"CommonPrefixes"`. -/
def commonPrefixesName : Text :=
  [67, 111, 109, 109, 111, 110, 80, 114, 101, 102, 105, 120, 101, 115]

/-- `"Key"`. -/
def keyName : Text := [75, 101, 121]

/-- `"Size"`. -/
def sizeName : Text := [83, 105, 122, 101]

/-- `"LastModified"`. -/
def lastModifiedName : Text := [76, 97, 115, 116, 77, 111, 100, 105, 102, 105, 101, 100]

/-- `"ETag"`. -/
def eTagName : Text := [69, 84, 97, 103]

/-- `"Prefix"`. -/
def prefixName : Text := [80, 114, 101, 102, 105, 120]

/-- `"IsTruncated"`. -/
def isTruncatedName : Text := [73, 115, 84, 114, 117, 110, 99, 97, 116, 101, 100]

/-- `"NextContinuationToken"`. -/
def nextTokenName : Text :=
  [78, 101, 120, 116, 67, 111, 110, 116, 105, 110, 117, 97, 116, 105, 111, 110, 84, 111, 107,
    101, 110]

/-- `"true"`. -/
def trueText : Text := [116, 114, 117, 101]

/-! ## The adapter -/

/-- What the adapter lists with: its normalized prefix, and `isoTime`. -/
structure S3Adapter where
  keyPrefix : Text
  isoTime : Option Text → Text

/-- `normalizePath(path, true)`. -/
def normalizePath (path : Text) : Except ListFailure Text :=
  let parts := (path.splitOn 47).filter fun part => decide (part ≠ [])
  if parts.any fun part => decide (part = [46] ∨ part = [46, 46]) then .error .invalidPath
  else .ok (List.intercalate [47] parts)

/-- `folderPrefix`. -/
def folderPrefix (s3 : S3Adapter) (path : Text) : Except ListFailure Text := do
  let normalized ← normalizePath path
  let key := List.intercalate [47] ([s3.keyPrefix, normalized].filter fun s => decide (s ≠ []))
  pure (if key = [] then [] else key ++ [47])

/-- `adapterPath(path).replace(/\/$/, "")`. -/
def basePath (path : Text) : Except ListFailure Text := do
  let normalized ← normalizePath path
  pure (if normalized = [] then [] else 47 :: normalized)

/-- `Number.isFinite(size) ? size : 0`, of the text of the element `Size`. -/
def readSize (size : Option Text) : JsNumber :=
  let n := JsNumber.parseDecimal (size.getD [48])
  if n.isFinite then n else .finite 0

/-- What the adapter makes of the text of an element `Contents`; `none` if it passes over it. -/
def readEntry (s3 : S3Adapter) (base pre contents : Text) :
    Except ListFailure (Option FileEntry) := do
  let key := (← xmlText contents keyName).getD []
  let name := key.drop pre.length
  if pre.isPrefixOf key = true ∧ name ≠ [] ∧ (47 : CodeUnit) ∉ name then do
    let size ← xmlText contents sizeName
    let modified ← xmlText contents lastModifiedName
    let etag ← xmlText contents eTagName
    pure (some ⟨name, base ++ 47 :: name, readSize size, s3.isoTime modified, etag⟩)
  else pure none

/-- `replace(/\/$/, "")`. -/
def dropSlash (t : Text) : Text := if t.getLast? = some 47 then t.dropLast else t

/-- What the adapter makes of the text of an element `CommonPrefixes`. -/
def readFolder (pre commonPrefix : Text) : Except ListFailure (Option Text) := do
  let key := (← xmlText commonPrefix prefixName).getD []
  let name := dropSlash (key.drop pre.length)
  pure (if pre.isPrefixOf key = true ∧ name ≠ [] ∧ (47 : CodeUnit) ∉ name then some name else none)

/-- `ListPage`. -/
structure ListPage where
  files : List FileEntry
  folders : List Text
  nextContinuationToken : Option Text

/-- `listPage`, of the text of a response. -/
def listPage (s3 : S3Adapter) (base pre xml : Text) : Except ListFailure ListPage :=
  if mentions listBucketResult xml then do
    let files ← (xmlBlocks xml contentsName).mapM (readEntry s3 base pre)
    let folders ← (xmlBlocks xml commonPrefixesName).mapM (readFolder pre)
    let truncated := decide (((← xmlText xml isTruncatedName).map fun t => t.map lower) =
      some trueText)
    let token := (← xmlText xml nextTokenName).getD []
    if truncated then
      if token = [] then .error .truncatedWithoutToken
      else pure ⟨files.filterMap id, folders.filterMap id, some token⟩
    else pure ⟨files.filterMap id, folders.filterMap id, none⟩
  else .error .notListBucketResult

/-- What is known after some pages: the files by name, the folders, and the tokens seen. -/
structure Progress where
  files : Record Text FileEntry
  folders : List Text
  observedTokens : List Text

/-- Add a page. -/
def Progress.add (g : Progress) (page : ListPage) : Progress :=
  { g with
    files := page.files.foldl (fun r file => r.set file.name file) g.files
    folders := page.folders.foldl (fun l f => if f ∈ l then l else l ++ [f]) g.folders }

/-- The loop of `list`, for some pages at most; `fetch` is the answer to a token. -/
def listFrom (s3 : S3Adapter) (fetch : Option Text → Except ListFailure Text) (base pre : Text) :
    ℕ → Progress → Option Text → Option (Except ListFailure Progress)
  | 0, _, _ => none
  | n + 1, g, continuationToken =>
    match fetch continuationToken >>= listPage s3 base pre with
    | .error e => some (.error e)
    | .ok page =>
      match page.nextContinuationToken with
      | none => some (.ok (g.add page))
      | some token =>
        if token ∈ g.observedTokens then some (.error .repeatedToken)
        else listFrom s3 fetch base pre n
          { g.add page with observedTokens := token :: g.observedTokens } (some token)

/-- `sortedValues`, by name. -/
def insertSorted (sorted : List FileEntry) (value : FileEntry) : List FileEntry :=
  sorted.takeWhile (fun candidate => decide (candidate.name ≤ value.name)) ++
    value :: sorted.dropWhile fun candidate => decide (candidate.name ≤ value.name)

/-- `listFiles`, for some pages at most. -/
def listFiles (s3 : S3Adapter) (fetch : Option Text → Except ListFailure Text) (folderPath : Text)
    (n : ℕ) : Option (Except ListFailure (List FileEntry)) :=
  match folderPrefix s3 folderPath, basePath folderPath with
  | .error e, _ => some (.error e)
  | _, .error e => some (.error e)
  | .ok pre, .ok base =>
    (listFrom s3 fetch base pre n ⟨∅, [], []⟩ none).map fun r =>
      r.map fun g => g.files.values.foldl insertSorted []

/-! ## Correct answers -/

/-- The names that have a meaning in a page. -/
def pageNames : List Text := [contentsName, commonPrefixesName, isTruncatedName, nextTokenName]

/-- Elements of a block: well-formed, and none of those that have a meaning in a page. -/
def Fields (l : List Node) : Prop := ∀ n ∈ l, n.Valid ∧ ∀ name ∈ pageNames, n.Apart name

/-- An element `Contents`: its key, spelled somehow, and what stands before and after it. -/
structure Entry where
  front : List Node
  key : List Piece
  back : List Node

namespace Entry

/-- The elements in it. -/
def children (e : Entry) : List Node := e.front ++ .leaf keyName e.key :: e.back

/-- It is well-formed, and its key is the first. -/
structure Valid (e : Entry) : Prop where
  fields : Fields e.children
  front : ∀ n ∈ e.front, n.Apart keyName

end Entry

/-- A part of a page. -/
inductive Part where
  | entry (e : Entry)
  | commonPrefix (children : List Node)
  | node (n : Node)

namespace Part

/-- As a part of a document. -/
def item : Part → Item
  | entry e => .block contentsName e.children
  | commonPrefix children => .block commonPrefixesName children
  | node n => .node n

/-- It is well-formed. -/
def Valid : Part → Prop
  | entry e => e.Valid
  | commonPrefix children => Fields children
  | node n => n.Valid ∧ n.Apart contentsName ∧ n.Apart commonPrefixesName

/-- The entry, if it is one. -/
def entry? : Part → Option Entry
  | entry e => some e
  | _ => none

/-- The elements of a common prefix, if it is one. -/
def commonPrefix? : Part → Option (List Node)
  | commonPrefix children => some children
  | _ => none

end Part

/-- A page: a declaration, the attributes of the root, and the parts.  `next` is the token of the
next page, as it is spelled. -/
structure Page where
  declaration : Text
  attributes : Text
  parts : List Part
  next : Option (List Piece)

namespace Page

/-- The parts of the document. -/
def items (page : Page) : List Item :=
  .declaration page.declaration :: .opening listBucketResult page.attributes ::
    (page.parts.map Part.item ++ [.closing listBucketResult])

/-- The document. -/
def text (page : Page) : Text := page.items.flatMap Item.render

/-- The text of the first element of a name. -/
def leaf (page : Page) (name : Text) : Option (List Piece) :=
  ((page.parts.map Part.item).filterMap (Item.text name)).head?

/-- The entries. -/
def entries (page : Page) : List Entry := page.parts.filterMap Part.entry?

/-- The keys that it names. -/
def keys (page : Page) : List Text := page.entries.map fun e => meaning e.key

/-- The token of the next page. -/
def token (page : Page) : Option Text := page.next.map meaning

/-- A page of a correct store: a well-formed document that says whether there is a next page, and
how it is asked for.  A token is a text without blanks around it. -/
structure Valid (page : Page) : Prop where
  declaration : (60 : CodeUnit) ∉ page.declaration
  attributes : (60 : CodeUnit) ∉ page.attributes ∧
    (page.attributes = [] ∨ page.attributes.head? = some 32)
  parts : ∀ p ∈ page.parts, p.Valid
  truncated : (page.leaf isTruncatedName).map (fun ps => (readText ps).map lower) = some trueText ↔
    page.next.isSome = true
  next : ∀ ps, page.next = some ps →
    page.leaf nextTokenName = some ps ∧ trimPieces ps = ps ∧ meaning ps ≠ []

end Page

/-- A key that a listing under a prefix with the delimiter `/` names by itself. -/
def Listed (pre key : Text) : Prop := pre <+: key ∧ (47 : CodeUnit) ∉ key.drop pre.length

/-- A correct answer to the listing of a prefix: its pages name each object once, and their tokens
lead from each to the next. -/
structure Answer (pre : Text) (objects : Finset Text) where
  pages : List Page
  valid : ∀ p ∈ pages, p.Valid
  linked : ∀ front p back, pages = front ++ p :: back → (p.next.isSome = true ↔ back ≠ [])
  ne_nil : pages ≠ []
  tokens : (pages.filterMap Page.token).Nodup
  nodup : (pages.flatMap Page.keys).Nodup
  mem_keys : ∀ key, key ∈ pages.flatMap Page.keys ↔ key ∈ objects ∧ Listed pre key

/-- What the store answers from a token on, if it answers, are some pages. -/
def Serves (fetch : Option Text → Except ListFailure Text) : Option Text → List Page → Prop
  | _, [] => True
  | token, p :: back =>
    (∀ xml, fetch token = .ok xml → xml = p.text) ∧ Serves fetch p.token back

/-- The store answers every request that pages lead to. -/
def Answers (fetch : Option Text → Except ListFailure Text) : Option Text → List Page → Prop
  | _, [] => True
  | token, p :: back => (∃ xml, fetch token = .ok xml) ∧ Answers fetch p.token back

/-! ## What is read of a page -/

theorem mapM_ok {α β γ : Type} {f : α → Except ListFailure β} {r : γ → α} {g : γ → β} {l : List γ}
    (h : ∀ c ∈ l, f (r c) = .ok (g c)) : (l.map r).mapM f = .ok (l.map g) := by
  induction l with
  | nil => rfl
  | cons c l ih =>
    rw [map_cons, mapM_cons, h c mem_cons_self, ok_bind,
      ih fun d hd => h d (mem_cons_of_mem c hd), ok_bind]
    rfl

/-- The text of the first element of a name in a block, as it is read. -/
def fieldText (children : List Node) (name : Text) : Option Text :=
  ((children.map Item.node).filterMap (Item.text name)).head?.map readText

theorem xmlText_block {name blockName : Text} (hname : name ≠ []) (hblock : IsName blockName)
    (hne : ¬SameName blockName name) {children : List Node} (h : ∀ n ∈ children, n.Valid) :
    xmlText (Item.render (.block blockName children)) name = .ok (fieldText children name) := by
  have hrender : Item.render (.block blockName children) =
      (Item.opening blockName [] :: (children.map Item.node ++ [.closing blockName])).flatMap
        Item.render := by
    simp [Item.render, startTag, flatMap_map]
  have hvalid : ∀ i ∈ Item.opening blockName [] :: (children.map Item.node ++
      [.closing blockName]), i.Valid name ∧ i.NoBlock name := by
    intro i hi
    rcases mem_cons.mp hi with rfl | hi
    · exact ⟨⟨hblock, hne, by simp, .inl rfl⟩, trivial⟩
    · rcases mem_append.mp hi with hi | hi
      · obtain ⟨n, hn, rfl⟩ := List.mem_map.mp hi
        exact ⟨h n hn, trivial⟩
      · rw [mem_singleton.mp hi]
        exact ⟨hblock, trivial⟩
  rw [hrender, xmlText_render hname hvalid, fieldText, filterMap_cons, filterMap_append]
  simp [Item.text]

theorem isName_names : ∀ name ∈ listBucketResult :: keyName :: pageNames, IsName name := by
  intro name hname
  simp only [mem_cons, not_mem_nil, or_false, pageNames] at hname
  rcases hname with rfl | rfl | rfl | rfl | rfl | rfl
  all_goals exact ⟨by decide, all_eq_true.mp (by decide)⟩

variable {e : Entry}

theorem xmlText_contents {name : Text} (hname : name ≠ []) (hne : ¬SameName contentsName name)
    (h : e.Valid) : xmlText (Part.entry e).item.render name = .ok (fieldText e.children name) :=
  xmlText_block hname (isName_names _ (by decide)) hne fun n hn => (h.fields n hn).1

theorem fieldText_key (h : e.Valid) : fieldText e.children keyName = some (readText e.key) := by
  have hfront : (e.front.map Item.node).filterMap (Item.text keyName) = [] := by
    refine filterMap_eq_nil_iff.mpr fun i hi => ?_
    obtain ⟨n, hn, rfl⟩ := List.mem_map.mp hi
    have hapart := h.front n hn
    cases n with
    | gap t => rfl
    | leaf name ps => exact if_neg hapart
  have hsame : SameName keyName keyName := rfl
  have hkey : Item.text keyName (.node (.leaf keyName e.key)) = some e.key := by
    rw [Item.text, if_pos hsame]
  rw [fieldText, Entry.children, map_append, filterMap_append, hfront, nil_append,
    map_cons, filterMap_cons, hkey]
  rfl

/-- What is read of an entry. -/
def Entry.file (s3 : S3Adapter) (base pre : Text) (e : Entry) : Option FileEntry :=
  let name := (readText e.key).drop pre.length
  if pre.isPrefixOf (readText e.key) = true ∧ name ≠ [] ∧ (47 : CodeUnit) ∉ name then
    some ⟨name, base ++ 47 :: name, readSize (fieldText e.children sizeName),
      s3.isoTime (fieldText e.children lastModifiedName), fieldText e.children eTagName⟩
  else none

theorem readEntry_entry (s3 : S3Adapter) (base pre : Text) (h : e.Valid) :
    readEntry s3 base pre (Part.entry e).item.render = .ok (e.file s3 base pre) := by
  rw [readEntry, xmlText_contents (by decide) (by decide) h, ok_bind, fieldText_key h,
    getD_some, Entry.file]
  dsimp only
  split_ifs with hname
  · rw [xmlText_contents (by decide) (by decide) h, ok_bind,
      xmlText_contents (by decide) (by decide) h, ok_bind,
      xmlText_contents (by decide) (by decide) h, ok_bind]
    rfl
  · rfl

/-- What is read of the elements of a common prefix. -/
def folderOf (pre : Text) (children : List Node) : Option Text :=
  let key := (fieldText children prefixName).getD []
  let name := dropSlash (key.drop pre.length)
  if pre.isPrefixOf key = true ∧ name ≠ [] ∧ (47 : CodeUnit) ∉ name then some name else none

theorem readFolder_commonPrefix (pre : Text) {children : List Node} (h : Fields children) :
    readFolder pre (Part.commonPrefix children).item.render = .ok (folderOf pre children) := by
  have hread : xmlText (Part.commonPrefix children).item.render prefixName =
      .ok (fieldText children prefixName) :=
    xmlText_block (by decide) (isName_names _ (by decide)) (by decide) fun n hn => (h n hn).1
  rw [readFolder, hread, ok_bind]
  rfl

namespace Page

variable {page : Page} {name : Text}

theorem Valid.items (h : page.Valid) (hname : name ∈ pageNames) :
    ∀ i ∈ page.items, i.Valid name := by
  have hroot : IsName listBucketResult := isName_names _ mem_cons_self
  have hother : ¬SameName listBucketResult name := by
    have hall : ∀ n ∈ pageNames, ¬SameName listBucketResult n := by decide
    exact hall name hname
  have hfields : ∀ {l : List Node}, Fields l → ∀ c ∈ l, c.Valid ∧ c.Apart name :=
    fun hl c hc => ⟨(hl c hc).1, (hl c hc).2 name hname⟩
  intro i hi
  rcases mem_cons.mp hi with rfl | hi
  · exact h.declaration
  rcases mem_cons.mp hi with rfl | hi
  · exact ⟨hroot, hother, h.attributes⟩
  rcases mem_append.mp hi with hi | hi
  · obtain ⟨p, hp, rfl⟩ := List.mem_map.mp hi
    have hpart := h.parts p hp
    cases p with
    | entry e => exact ⟨isName_names _ (by decide), hfields hpart.fields⟩
    | commonPrefix children => exact ⟨isName_names _ (by decide), hfields hpart⟩
    | node n => exact hpart.1
  · rw [mem_singleton.mp hi]
    exact hroot

theorem Valid.mentions (h : page.Valid) : mentions listBucketResult page.text = true := by
  obtain ⟨u, t, heq, hu, hcolon⟩ : ∃ u t, page.attributes ++ 62 ::
      (page.parts.map Part.item ++ [Item.closing listBucketResult]).flatMap Item.render = u :: t ∧
        isNameUnit u = false ∧ u ≠ 58 := by
    rcases h.attributes.2 with hnil | hhead
    · exact ⟨62, _, by rw [hnil]; rfl, by decide, by decide⟩
    · obtain ⟨t, ht⟩ := List.head?_eq_some_iff.mp hhead
      exact ⟨32, _, by rw [ht]; rfl, by decide, by decide⟩
  have htext : page.text = ([60, 63] ++ page.declaration ++ [63, 62]) ++
      60 :: (listBucketResult ++ u :: t) := by
    rw [← heq]
    simp [text, Page.items, Item.render]
  rw [htext]
  refine mentions_append _ ?_
  rw [tagNameAt_append (isName_names _ mem_cons_self) hu hcolon]
  rfl

theorem xmlBlocks_text {α : Type} (h : page.Valid) (hname : name ∈ pageNames)
    {pick : Part → Option α} {block : α → Part} (hroot : ∀ p ∈ page.parts,
      (Item.value name p.item).map Prod.fst = (pick p).map fun a => (block a).item.render) :
    xmlBlocks page.text name =
      (page.parts.filterMap pick).map fun a => (block a).item.render := by
  rw [text, xmlBlocks_render (isName_names _ (by simp [hname])).ne_nil (h.items hname)]
  have hparts : ((page.parts.map Part.item).filterMap (Item.value name)).map Prod.fst =
      (page.parts.filterMap pick).map fun a => (block a).item.render := by
    rw [filterMap_map, map_filterMap, map_filterMap]
    exact filterMap_congr hroot
  have hclosing : [Item.closing listBucketResult].filterMap (Item.value name) = [] := rfl
  have hitems : page.items.filterMap (Item.value name) =
      (page.parts.map Part.item).filterMap (Item.value name) := by
    rw [Page.items, filterMap_cons, filterMap_cons, filterMap_append, hclosing, append_nil]
    rfl
  rw [hitems, hparts]

theorem xmlText_text (h : page.Valid) (hname : name ∈ pageNames)
    (hcontents : ¬SameName contentsName name) (hprefixes : ¬SameName commonPrefixesName name) :
    xmlText page.text name = .ok ((page.leaf name).map readText) := by
  have hvalid : ∀ i ∈ page.items, i.Valid name ∧ i.NoBlock name := by
    refine fun i hi => ⟨h.items hname i hi, ?_⟩
    rcases mem_cons.mp hi with rfl | hi
    · trivial
    rcases mem_cons.mp hi with rfl | hi
    · trivial
    rcases mem_append.mp hi with hi | hi
    · obtain ⟨p, -, rfl⟩ := List.mem_map.mp hi
      cases p with
      | entry e => exact hcontents
      | commonPrefix children => exact hprefixes
      | node n => trivial
    · rw [mem_singleton.mp hi]
      trivial
  have hclosing : [Item.closing listBucketResult].filterMap (Item.text name) = [] := rfl
  rw [text, xmlText_render (isName_names _ (by simp [hname])).ne_nil hvalid, leaf, Page.items,
    filterMap_cons, filterMap_cons, filterMap_append, hclosing, append_nil]
  rfl

/-- The files that are read of a page. -/
def files (s3 : S3Adapter) (base pre : Text) (page : Page) : List FileEntry :=
  page.entries.filterMap (Entry.file s3 base pre)

/-- The folders that are read of a page. -/
def folders (pre : Text) (page : Page) : List Text :=
  (page.parts.filterMap Part.commonPrefix?).filterMap (folderOf pre)

end Page

/-- **Reading a page.**  The adapter reads the entries of a page, and the token of the next one. -/
theorem listPage_text (s3 : S3Adapter) (base pre : Text) {page : Page} (h : page.Valid) :
    listPage s3 base pre page.text =
      .ok ⟨page.files s3 base pre, page.folders pre, page.token⟩ := by
  have hcontents : xmlBlocks page.text contentsName =
      page.entries.map fun e => (Part.entry e).item.render := by
    refine Page.xmlBlocks_text h (by decide) fun p hp => ?_
    have hpart := h.parts p hp
    cases p with
    | entry e => rfl
    | commonPrefix children => rfl
    | node n =>
      cases n with
      | gap t => rfl
      | leaf name ps => exact congrArg (Option.map Prod.fst) (if_neg hpart.2.1)
  have hprefixes : xmlBlocks page.text commonPrefixesName =
      (page.parts.filterMap Part.commonPrefix?).map fun l => (Part.commonPrefix l).item.render := by
    refine Page.xmlBlocks_text h (by decide) fun p hp => ?_
    have hpart := h.parts p hp
    cases p with
    | entry e => rfl
    | commonPrefix children => rfl
    | node n =>
      cases n with
      | gap t => rfl
      | leaf name ps => exact congrArg (Option.map Prod.fst) (if_neg hpart.2.2)
  have hfiles : (xmlBlocks page.text contentsName).mapM (readEntry s3 base pre) =
      .ok (page.entries.map (Entry.file s3 base pre)) := by
    rw [hcontents]
    refine mapM_ok fun e he => readEntry_entry s3 base pre ?_
    obtain ⟨p, hp, hentry⟩ := mem_filterMap.mp he
    cases p with
    | entry e' => exact some.inj hentry ▸ h.parts _ hp
    | commonPrefix children => exact absurd hentry (by simp [Part.entry?])
    | node n => exact absurd hentry (by simp [Part.entry?])
  have hfolders : (xmlBlocks page.text commonPrefixesName).mapM (readFolder pre) =
      .ok ((page.parts.filterMap Part.commonPrefix?).map (folderOf pre)) := by
    rw [hprefixes]
    refine mapM_ok fun l hl => readFolder_commonPrefix pre ?_
    obtain ⟨p, hp, hprefix⟩ := mem_filterMap.mp hl
    cases p with
    | commonPrefix children => exact some.inj hprefix ▸ h.parts _ hp
    | entry e => exact absurd hprefix (by simp [Part.commonPrefix?])
    | node n => exact absurd hprefix (by simp [Part.commonPrefix?])
  have htruncated : ((page.leaf isTruncatedName).map readText).map (fun t => t.map lower) =
      some trueText ↔ page.next.isSome = true := by
    rw [Option.map_map]
    exact h.truncated
  rw [listPage, if_pos h.mentions, hfiles, ok_bind, hfolders, ok_bind,
    Page.xmlText_text h (by decide) (by decide) (by decide), ok_bind,
    Page.xmlText_text h (by decide) (by decide) (by decide), ok_bind, Page.files, Page.folders,
    Page.token, filterMap_map, filterMap_map]
  cases hnext : page.next with
  | none =>
    rw [hnext] at htruncated
    rw [if_neg (by simpa using htruncated)]
    rfl
  | some ps =>
    obtain ⟨hleaf, htrim, hne⟩ := h.next ps hnext
    have hread : readText ps = meaning ps := congrArg meaning htrim
    rw [hnext] at htruncated
    rw [if_pos (by simpa using htruncated), hleaf, map_some, getD_some, hread, if_neg hne]
    rfl

/-! ## What is read of all pages -/

/-- The name that is read of an entry. -/
def Entry.name (pre : Text) (e : Entry) : Option Text :=
  let name := (readText e.key).drop pre.length
  if pre.isPrefixOf (readText e.key) = true ∧ name ≠ [] ∧ (47 : CodeUnit) ∉ name then some name
  else none

theorem Entry.map_name_file (s3 : S3Adapter) (base pre : Text) (e : Entry) :
    (e.file s3 base pre).map FileEntry.name = e.name pre := by
  rw [Entry.file, Entry.name]
  split_ifs with h
  · rfl
  · rfl

/-- Files are put under their names. -/
def setFiles (files : List FileEntry) (r : Record Text FileEntry) : Record Text FileEntry :=
  files.foldl (fun r file => r.set file.name file) r

theorem setFiles_append (l m : List FileEntry) (r : Record Text FileEntry) :
    setFiles (l ++ m) r = setFiles m (setFiles l r) :=
  foldl_append

variable {r : Record Text FileEntry}

theorem mem_keys_setFiles {files : List FileEntry} {n : Text} :
    n ∈ (setFiles files r).keys ↔ n ∈ r.keys ∨ n ∈ files.map FileEntry.name := by
  induction files generalizing r with
  | nil => simp [setFiles]
  | cons file files ih =>
    have hset : n ∈ (r.set file.name file).keys ↔ n = file.name ∨ n ∈ r.keys :=
      mem_map_fst_put
    have hcons : setFiles (file :: files) r = setFiles files (r.set file.name file) := rfl
    rw [hcons, ih, hset, map_cons, mem_cons]
    tauto

/-- What stands under a name has that name. -/
def Named (r : Record Text FileEntry) : Prop := ∀ n file, r.get n = some file → file.name = n

theorem named_setFiles {files : List FileEntry} (h : Named r) : Named (setFiles files r) := by
  induction files generalizing r with
  | nil => exact h
  | cons file files ih =>
    refine ih fun n f hf => ?_
    rw [Record.get_set] at hf
    split_ifs at hf with hn
    · rw [← some.inj hf, hn]
    · exact h n f hf

theorem Named.map_values (h : Named r) : r.values.map FileEntry.name = r.keys := by
  rw [Record.values, Record.keys, List.map_map]
  refine map_congr_left fun p hp => ?_
  exact h p.1 p.2 (r.mem_entries_iff.mp hp)

theorem insertSorted_perm (sorted : List FileEntry) (value : FileEntry) :
    (insertSorted sorted value).Perm (value :: sorted) := by
  refine perm_middle.trans (List.Perm.cons value ?_)
  rw [takeWhile_append_dropWhile]

theorem foldl_insertSorted_perm (l sorted : List FileEntry) :
    (l.foldl insertSorted sorted).Perm (l ++ sorted) := by
  induction l generalizing sorted with
  | nil => exact List.Perm.refl sorted
  | cons value l ih =>
    refine (ih (insertSorted sorted value)).trans ?_
    exact ((insertSorted_perm sorted value).append_left l).trans perm_middle

section Run

variable (s3 : S3Adapter) {fetch : Option Text → Except ListFailure Text} (base pre : Text)
  {objects : Finset Text}

/-- What is read of some pages. -/
def readPages (pages : List Page) : List FileEntry := pages.flatMap (Page.files s3 base pre)

/-- **All pages are read.**  From any page on, the loop follows the tokens to the last page, since
none of them has been seen; or a request fails, and the loop with it. -/
theorem listFrom_pages (answer : Answer pre objects) (front : List Page) (p : Page)
    (back : List Page) (hpages : answer.pages = front ++ p :: back) {n : ℕ} (hn : back.length < n)
    {g : Progress} (hseen : ∀ t ∈ g.observedTokens, t ∈ front.filterMap Page.token)
    {token : Option Text} (hserves : Serves fetch token (p :: back)) :
    ∃ r, listFrom s3 fetch base pre n g token = some r ∧
      (Answers fetch token (p :: back) →
        ∃ g', r = .ok g' ∧ g'.files = setFiles (readPages s3 base pre (p :: back)) g.files) ∧
      (¬Answers fetch token (p :: back) → ∃ e, r = .error e) := by
  induction back generalizing front p n g token with
  | nil =>
    obtain ⟨n, rfl⟩ := Nat.exists_eq_add_one_of_ne_zero (Nat.ne_of_gt hn)
    have hmem : p ∈ answer.pages := by simp [hpages]
    have hlast : p.next = none := by
      have hiff := answer.linked front p [] hpages
      simpa using hiff
    have htoken : p.token = none := by rw [Page.token, hlast]; rfl
    cases hfetch : fetch token with
    | error e =>
      refine ⟨.error e, ?_, fun h => ?_, fun _ => ⟨e, rfl⟩⟩
      · rw [listFrom, hfetch]
        rfl
      · obtain ⟨xml, hxml⟩ := h.1
        exact absurd (hfetch.symm.trans hxml) (by simp)
    | ok xml =>
      obtain rfl := hserves.1 xml hfetch
      refine ⟨.ok (g.add ⟨p.files s3 base pre, p.folders pre, p.token⟩), ?_, fun _ => ⟨_, rfl, ?_⟩,
        fun h => absurd ⟨⟨_, hfetch⟩, trivial⟩ h⟩
      · rw [listFrom, hfetch, ok_bind, listPage_text s3 base pre (answer.valid p hmem), htoken]
      · rw [readPages, flatMap_cons, flatMap_nil, append_nil]
        rfl
  | cons q back ih =>
    obtain ⟨n, rfl⟩ := Nat.exists_eq_add_one_of_ne_zero (Nat.ne_of_gt (Nat.zero_lt_of_lt hn))
    have hmem : p ∈ answer.pages := by simp [hpages]
    have hmore : p.next.isSome = true := (answer.linked front p (q :: back) hpages).mpr (by simp)
    obtain ⟨ps, hps⟩ := isSome_iff_exists.mp hmore
    have htoken : p.token = some (meaning ps) := by rw [Page.token, hps]; rfl
    -- the tokens of the pages differ, so this one has not been seen
    have hnew : meaning ps ∉ g.observedTokens := by
      intro ht
      have hnodup := answer.tokens
      rw [hpages, filterMap_append, filterMap_cons, htoken] at hnodup
      exact (nodup_append.mp hnodup).2.2 _ (hseen _ ht) _ mem_cons_self rfl
    have hpages' : answer.pages = (front ++ [p]) ++ q :: back := by simp [hpages]
    have hseen' : ∀ t ∈ meaning ps :: g.observedTokens,
        t ∈ (front ++ [p]).filterMap Page.token := by
      intro t ht
      rw [filterMap_append, mem_append]
      rcases mem_cons.mp ht with rfl | ht
      · exact .inr (mem_filterMap.mpr ⟨p, mem_singleton_self p, htoken⟩)
      · exact .inl (hseen t ht)
    cases hfetch : fetch token with
    | error e =>
      refine ⟨.error e, ?_, fun h => ?_, fun _ => ⟨e, rfl⟩⟩
      · rw [listFrom, hfetch]
        rfl
      · obtain ⟨xml, hxml⟩ := h.1
        exact absurd (hfetch.symm.trans hxml) (by simp)
    | ok xml =>
      obtain rfl := hserves.1 xml hfetch
      obtain ⟨r, hrun, hok, herror⟩ := ih (front ++ [p]) q hpages' (Nat.lt_of_succ_lt_succ hn)
        (g := { g.add ⟨p.files s3 base pre, p.folders pre, p.token⟩ with
          observedTokens := meaning ps :: g.observedTokens }) hseen' (htoken ▸ hserves.2)
      refine ⟨r, ?_, fun h => ?_, fun h => ?_⟩
      · rw [listFrom, hfetch, ok_bind, listPage_text s3 base pre (answer.valid p hmem), htoken]
        dsimp only
        rw [if_neg hnew]
        exact hrun
      · obtain ⟨g', hr, hfiles⟩ := hok (htoken ▸ h.2)
        have hcons : readPages s3 base pre (p :: q :: back) =
            p.files s3 base pre ++ readPages s3 base pre (q :: back) := flatMap_cons
        refine ⟨g', hr, ?_⟩
        rw [hfiles, hcons, setFiles_append]
        rfl
      · exact herror fun hrest => h ⟨⟨_, hfetch⟩, htoken ▸ hrest⟩

theorem exists_basePath {folderPath : Text} (hpre : folderPrefix s3 folderPath = .ok pre) :
    ∃ base, basePath folderPath = .ok base := by
  rw [folderPrefix] at hpre
  rw [basePath]
  cases hnorm : normalizePath folderPath with
  | error e =>
    rw [hnorm] at hpre
    exact absurd hpre (by rintro ⟨⟩)
  | ok normalized => exact ⟨_, rfl⟩

/-- If all requests are answered, the names in a listing are those that are read of the entries,
each once; otherwise the listing fails. -/
theorem listFiles_names {folderPath : Text} (hpre : folderPrefix s3 folderPath = .ok pre)
    (answer : Answer pre objects) (hserves : Serves fetch none answer.pages) {n : ℕ}
    (hn : answer.pages.length ≤ n) :
    ∃ r, listFiles s3 fetch folderPath n = some r ∧
      (Answers fetch none answer.pages → ∃ entries, r = .ok entries ∧
        (entries.map FileEntry.name).Nodup ∧
        ∀ name, name ∈ entries.map FileEntry.name ↔
          ∃ e ∈ answer.pages.flatMap Page.entries, e.name pre = some name) ∧
      (¬Answers fetch none answer.pages → ∃ e, r = .error e) := by
  obtain ⟨base, hbase⟩ := exists_basePath s3 pre hpre
  obtain ⟨p, back, hpages⟩ := exists_cons_of_ne_nil answer.ne_nil
  rw [hpages] at hserves hn
  obtain ⟨r, hrun, hok, herror⟩ := listFrom_pages s3 base pre answer [] p back hpages hn
    (g := ⟨∅, [], []⟩) (by simp) hserves
  rw [← hpages] at hok herror
  have hlist : listFiles s3 fetch folderPath n =
      some (r.map fun g => g.files.values.foldl insertSorted []) := by
    rw [listFiles, hpre, hbase]
    dsimp only
    rw [hrun]
    rfl
  refine ⟨_, hlist, fun h => ?_, fun h => ?_⟩
  · obtain ⟨g, rfl, hfiles⟩ := hok h
    have hnamed : Named g.files := by
      rw [hfiles]
      exact named_setFiles fun n file h => absurd h (by simp)
    have hnames : ((g.files.values.foldl insertSorted []).map FileEntry.name).Perm
        g.files.keys := by
      rw [← hnamed.map_values]
      simpa using (foldl_insertSorted_perm g.files.values []).map FileEntry.name
    refine ⟨_, rfl, hnames.nodup_iff.mpr g.files.nodup, fun name => ?_⟩
    rw [hnames.mem_iff, hfiles, mem_keys_setFiles]
    have hempty : name ∉ (∅ : Record Text FileEntry).keys := not_mem_nil
    simp only [hempty, false_or, readPages, Page.files, List.mem_map, mem_flatMap, mem_filterMap]
    constructor
    · rintro ⟨file, ⟨page, hpage, e, he, hfile⟩, rfl⟩
      refine ⟨e, ⟨page, hpage, he⟩, ?_⟩
      rw [← Entry.map_name_file s3 base, hfile]
      rfl
    · rintro ⟨e, ⟨page, hpage, he⟩, hname⟩
      rw [← Entry.map_name_file s3 base] at hname
      obtain ⟨file, hfile, rfl⟩ := map_eq_some_iff.mp hname
      exact ⟨file, ⟨page, hpage, e, he, hfile⟩, rfl⟩
  · obtain ⟨e, rfl⟩ := herror h
    exact ⟨e, rfl⟩

end Run

/-! ## What is exact -/

/-- The file of a name is a direct child of the folder. -/
def IsChild (pre : Text) (objects : Finset Text) (name : Text) : Prop :=
  name ≠ [] ∧ (47 : CodeUnit) ∉ name ∧ pre ++ name ∈ objects

/-- A key without a blank at an end that is spelled by itself. -/
def Unpadded (ps : List Piece) : Prop := trimPieces ps = ps

instance (ps : List Piece) : Decidable (Unpadded ps) := inferInstanceAs (Decidable (_ = _))

theorem fromCodePoint_ne_nil (n : ℕ) : fromCodePoint n ≠ [] := by
  rw [fromCodePoint]
  split_ifs <;> simp

theorem meaning_ne_nil {ps : List Piece} (h : ps ≠ []) : meaning ps ≠ [] := by
  obtain ⟨p, ps, rfl⟩ := exists_cons_of_ne_nil h
  have hpiece : p.meaning ≠ [] := by
    cases p with
    | plain u => exact cons_ne_nil u []
    | named e => exact cons_ne_nil e.unit []
    | hex digits => exact fromCodePoint_ne_nil _
    | dec digits => exact fromCodePoint_ne_nil _
  intro hnil
  have happ : p.meaning ++ meaning ps = [] := hnil
  exact hpiece (append_eq_nil_iff.mp happ).1

theorem length_readText (ps : List Piece) :
    (readText ps).length ≤ (meaning ps).length ∧
      (¬Unpadded ps → (readText ps).length < (meaning ps).length) := by
  obtain ⟨a, ha⟩ := dropWhile_suffix (l := ps) Piece.isBlank
  obtain ⟨b, hb⟩ := rdropWhile_prefix Piece.isBlank (ps.dropWhile Piece.isBlank)
  have hsplit : ps = a ++ (trimPieces ps ++ b) := by
    rw [trimPieces, hb, ha]
  have hlength : (meaning ps).length =
      (meaning a).length + ((readText ps).length + (meaning b).length) := by
    conv_lhs => rw [hsplit]
    simp [meaning, readText]
  refine ⟨by omega, fun hpadded => ?_⟩
  have hrest : a ≠ [] ∨ b ≠ [] := by
    by_contra hnone
    rw [not_or, not_not, not_not] at hnone
    rw [hnone.1, hnone.2, nil_append, append_nil] at hsplit
    exact hpadded hsplit.symm
  rcases hrest with h | h
  · have hpos := length_pos_of_ne_nil (meaning_ne_nil h)
    omega
  · have hpos := length_pos_of_ne_nil (meaning_ne_nil h)
    omega

theorem Entry.name_eq_some_iff {pre : Text} {name : Text} :
    e.name pre = some name ↔
      readText e.key = pre ++ name ∧ name ≠ [] ∧ (47 : CodeUnit) ∉ name := by
  rw [Entry.name]
  constructor
  · intro h
    split_ifs at h with hif
    obtain ⟨hpre, hne, hslash⟩ := hif
    obtain ⟨t, ht⟩ := isPrefixOf_iff_prefix.mp hpre
    rw [← ht, drop_left] at h hne hslash
    rw [← some.inj h]
    exact ⟨ht.symm, hne, hslash⟩
  · rintro ⟨hread, hne, hslash⟩
    rw [hread, drop_left]
    exact if_pos ⟨List.isPrefixOf_iff_prefix.mpr (prefix_append pre name), hne, hslash⟩

section Exact

variable {pre : Text} {objects : Finset Text}

/-- The entries of an answer. -/
def Answer.entries (answer : Answer pre objects) : List Entry :=
  answer.pages.flatMap Page.entries

namespace Answer

theorem keys_eq (answer : Answer pre objects) :
    answer.pages.flatMap Page.keys = answer.entries.map fun e => meaning e.key := by
  rw [entries, map_flatMap]
  rfl

theorem entry_ext (answer : Answer pre objects) {e' : Entry} (he : e ∈ answer.entries)
    (he' : e' ∈ answer.entries) (h : meaning e.key = meaning e'.key) : e = e' := by
  have hnodup := answer.nodup
  rw [keys_eq] at hnodup
  exact inj_on_of_nodup_map hnodup he he' h

theorem exists_entry (answer : Answer pre objects) {name : Text} (h : IsChild pre objects name) :
    ∃ e ∈ answer.entries, meaning e.key = pre ++ name := by
  have hmem : pre ++ name ∈ answer.pages.flatMap Page.keys := by
    refine (answer.mem_keys _).mpr ⟨h.2.2, prefix_append pre name, ?_⟩
    rw [drop_left]
    exact h.2.1
  rw [keys_eq] at hmem
  exact List.mem_map.mp hmem

theorem exists_child (answer : Answer pre objects) (he : e ∈ answer.entries)
    (hlength : pre.length < (meaning e.key).length) :
    ∃ name, meaning e.key = pre ++ name ∧ IsChild pre objects name := by
  have hmem : meaning e.key ∈ answer.pages.flatMap Page.keys := by
    rw [keys_eq]
    exact List.mem_map.mpr ⟨e, he, rfl⟩
  obtain ⟨hobject, ⟨name, hname⟩, hslash⟩ := (answer.mem_keys _).mp hmem
  rw [← hname, drop_left] at hslash
  refine ⟨name, hname.symm, ?_, hslash, hname ▸ hobject⟩
  rintro rfl
  rw [← hname, append_nil] at hlength
  exact Nat.lt_irrefl _ hlength

/-- No entry of a child has a padded key. -/
def ChildrenUnpadded (answer : Answer pre objects) : Prop :=
  ∀ e ∈ answer.entries, ∀ name, IsChild pre objects name → meaning e.key = pre ++ name →
    Unpadded e.key

theorem names_of_unpadded (answer : Answer pre objects) (h : answer.ChildrenUnpadded)
    (name : Text) : (∃ e ∈ answer.entries, e.name pre = some name) ↔ IsChild pre objects name := by
  constructor
  · rintro ⟨e, he, hname⟩
    obtain ⟨hread, hne, -⟩ := Entry.name_eq_some_iff.mp hname
    -- the key is at least as long as what is read, so it is that of a child
    have hlength : pre.length < (meaning e.key).length := by
      have hle := (length_readText e.key).1
      have hpos := length_pos_of_ne_nil hne
      rw [hread, length_append] at hle
      omega
    obtain ⟨child, hkey, hchild⟩ := answer.exists_child he hlength
    have hunpadded := h e he child hchild hkey
    have heq : pre ++ name = pre ++ child := by
      rw [← hread, ← hkey, readText, hunpadded]
    rw [append_cancel_left heq]
    exact hchild
  · intro hchild
    obtain ⟨e, he, hkey⟩ := answer.exists_entry hchild
    have hunpadded := h e he name hchild hkey
    have hread : readText e.key = pre ++ name := by rw [readText, hunpadded, hkey]
    exact ⟨e, he, Entry.name_eq_some_iff.mpr ⟨hread, hchild.1, hchild.2.1⟩⟩

/-- If the names that are read are those of the children, no key of a child is padded: the name of
a child with a padded key would have to be read from a longer key, which is padded as well. -/
theorem unpadded_of_names (answer : Answer pre objects)
    (h : ∀ name, IsChild pre objects name → ∃ e ∈ answer.entries, e.name pre = some name) :
    answer.ChildrenUnpadded := by
  have hlonger : ∀ e ∈ answer.entries, pre.length < (meaning e.key).length → ¬Unpadded e.key →
      ∃ e' ∈ answer.entries, (meaning e.key).length < (meaning e'.key).length ∧
        ¬Unpadded e'.key := by
    intro e he hlength hpadded
    obtain ⟨name, hkey, hchild⟩ := answer.exists_child he hlength
    obtain ⟨e', he', hname⟩ := h name hchild
    obtain ⟨hread, -⟩ := Entry.name_eq_some_iff.mp hname
    rw [← hkey] at hread
    have hpadded' : ¬Unpadded e'.key := by
      intro hunpadded
      have heq : meaning e'.key = meaning e.key := by rw [← hread, readText, hunpadded]
      exact hpadded (answer.entry_ext he' he heq ▸ hunpadded)
    refine ⟨e', he', ?_, hpadded'⟩
    rw [← hread]
    exact (length_readText e'.key).2 hpadded'
  intro e he name hchild hkey
  by_contra hpadded
  -- there is no end to longer keys
  have hunbounded : ∀ k, ∃ e ∈ answer.entries, pre.length + k < (meaning e.key).length ∧
      ¬Unpadded e.key := by
    intro k
    induction k with
    | zero =>
      refine ⟨e, he, ?_, hpadded⟩
      have hpos := length_pos_of_ne_nil hchild.1
      rw [hkey, length_append]
      omega
    | succ k ih =>
      obtain ⟨e, he, hlength, hpadded⟩ := ih
      obtain ⟨e', he', hlt, hpadded'⟩ := hlonger e he (by omega) hpadded
      exact ⟨e', he', by omega, hpadded'⟩
  obtain ⟨e, he, hlength, -⟩ := hunbounded (answer.entries.map fun e => (meaning e.key).length).sum
  have hmem : (meaning e.key).length ∈ answer.entries.map fun e => (meaning e.key).length :=
    List.mem_map.mpr ⟨e, he, rfl⟩
  have hle := le_sum_of_mem hmem
  omega

end Answer

/-- The listing fails, or it has every direct child once, by its name, and nothing else. -/
def FailsOrExact (pre : Text) (objects : Finset Text)
    (r : Except ListFailure (List FileEntry)) : Prop :=
  ∀ entries, r = .ok entries → (entries.map FileEntry.name).Nodup ∧
    ∀ name, name ∈ entries.map FileEntry.name ↔ IsChild pre objects name

/-- **What is listed.**  The loop ends.  Its result is exact if and only if no direct child has a
padded key, unless a request fails. -/
theorem listFiles_failsOrExact_iff (s3 : S3Adapter) {folderPath : Text}
    (hpre : folderPrefix s3 folderPath = .ok pre) {fetch : Option Text → Except ListFailure Text}
    (answer : Answer pre objects) (hserves : Serves fetch none answer.pages) {n : ℕ}
    (hn : answer.pages.length ≤ n) :
    ∃ r, listFiles s3 fetch folderPath n = some r ∧
      (FailsOrExact pre objects r ↔
        ¬Answers fetch none answer.pages ∨ answer.ChildrenUnpadded) := by
  obtain ⟨r, hrun, hok, herror⟩ := listFiles_names s3 pre hpre answer hserves hn
  refine ⟨r, hrun, ?_⟩
  by_cases h : Answers fetch none answer.pages
  · obtain ⟨entries, rfl, hnodup, hnames⟩ := hok h
    rw [or_iff_right (not_not_intro h)]
    constructor
    · intro hexact
      refine answer.unpadded_of_names fun name hchild => (hnames name).mp ?_
      exact ((hexact entries rfl).2 name).mpr hchild
    · rintro hunpadded _ ⟨⟩
      refine ⟨hnodup, fun name => ?_⟩
      rw [hnames name]
      exact answer.names_of_unpadded hunpadded name
  · obtain ⟨e, rfl⟩ := herror h
    exact ⟨fun _ => .inl h, fun _ entries hentries => absurd hentries (by simp)⟩

end Exact

end S3

end Interocitor
