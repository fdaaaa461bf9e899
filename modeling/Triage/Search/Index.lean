import Triage.Search.Request

/-!
# Search index

Issue documents by key, with filtered, faceted and paged search.  The listing of a query is its
matching documents in one total order, and a page is a slice of the listing.
-/

namespace Triage

/-- The place of a document in a listing: lower ranks come first. -/
def SortOrder.rank : Option SortOrder → IssueDoc → Int
  | none, d => -d.createdAt.millis.toInt
  | some o, d =>
    let value := match o.field with
      | .createdAt => d.createdAt.millis.toInt
      | .updatedAt => d.updatedAt.millis.toInt
      | .severity => d.severity.rank
    if o.ascending then value else -value

/-- Whether `a` stands before `b` in a listing: by rank, then by key. -/
def SortOrder.before (o : Option SortOrder) (a b : IssueDoc) : Bool :=
  rank o a < rank o b || rank o a == rank o b && a.key < b.key

/-- Indexed documents. -/
structure Index where
  docs : KeyMap .issue IssueDoc := ∅
deriving DecidableEq, Inhabited

namespace Index

/-- The index with `d`, in place of a document with the same key. -/
def put (x : Index) (d : IssueDoc) : Index := ⟨x.docs.insert d.key d⟩

/-- The index without a document for `key`. -/
def remove (x : Index) (key : IssueKey) : Index := ⟨x.docs.erase key⟩

/-- The keys of the documents, in increasing order. -/
def keys (x : Index) : List IssueKey := x.docs.keys

/-- The document for `key`. -/
def get? (x : Index) (key : IssueKey) : Option IssueDoc := x.docs.get? key

/-- The number of documents. -/
def size (x : Index) : Nat := x.docs.size

/-- The documents that the query accepts. -/
def matching (x : Index) (q : IssueQuery) : List IssueDoc := x.docs.values.filter q.accepts

/-- The documents that the query accepts, in their order. -/
def listing (x : Index) (q : IssueQuery) (o : Option SortOrder) : List IssueDoc :=
  (x.matching q).mergeSort fun a b => !SortOrder.before o b a

/-- The facet of the documents that the query accepts. -/
def facet (x : Index) (q : IssueQuery) (field : FacetField) : FacetCounts :=
  .aggregate field (x.matching q)

/-- The requested page, with the number of matches and the requested facets. -/
def search (x : Index) (r : SearchRequest) : SearchResult :=
  let listing := x.listing r.query r.sort
  { total := listing.length
    hits := (listing.drop r.offset).take r.limit
    facets := r.facets.foldl (fun m f => m.insert ⟨label f⟩ (.aggregate f listing)) ∅ }

/-- Whether `needle` occurs in `hay`. -/
def occursIn (needle : List Char) : List Char → Bool
  | [] => needle.isEmpty
  | c :: cs => needle.isPrefixOf (c :: cs) || occursIn needle cs

/-- Whether the first of two tags, each with its number of documents, stands before the second: it
is the more frequent one, or they are equally frequent and its text is the lesser. -/
def tagBefore (a b : String × Nat) : Bool := b.2 < a.2 || a.2 == b.2 && a.1 < b.1

/-- The `size` most frequent tags that contain `substring`, of equally frequent ones the first by
their text. -/
def listTags (x : Index) (substring : Option String) (size : Nat) : List String :=
  let tags := (x.docs.values.flatMap fun d => d.tags.toList).filter fun t =>
    substring.all fun s => occursIn s.toList t.toList
  let ranked := (tags.eraseDups.map fun t => (t, tags.count t)).mergeSort fun a b => !tagBefore b a
  (ranked.take size).map (·.1)

end Index

end Triage
