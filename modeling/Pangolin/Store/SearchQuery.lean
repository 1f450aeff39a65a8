import Pangolin.Lib.Patterns
import Pangolin.Store.Identity

/-!
# Search queries

A query is split at white space into tokens in lower case.  Tokens of three characters and
more go to the full-text index as quoted phrases; one shorter token sends all of them to a
`LIKE` scan, each escaped and between wildcards.  Both ways of asking mean the same: every
token is in one of the columns of a row.
-/

namespace Pangolin.Store.Search

open Patterns Utf8

/-! ## Projections -/

/-- The text tools of the index: the host of a URL that parses and has one, and that case
mapping leaves no ASCII capital. -/
structure SearchTools extends TextTools where
  /-- `Url::parse` and `host_str`. -/
  hostStr : Text → Option Text
  lowercaseMapping_uncapitalised : ∀ char, Uncapitalised (lowercaseMapping char)

/-- The searchable columns of an account, in lower case. -/
structure SearchProjection where
  displayName : Text
  tagsJoined : Text
  hostnamesJoined : Text
  displayName_lower : Uncapitalised displayName
  tagsJoined_lower : Uncapitalised tagsJoined
  hostnamesJoined_lower : Uncapitalised hostnamesJoined

def SearchProjection.columns (projection : SearchProjection) : List Text :=
  [projection.displayName, projection.tagsJoined, projection.hostnamesJoined]

theorem SearchProjection.columns_lower (projection : SearchProjection) {column : Text}
    (member : column ∈ projection.columns) : Uncapitalised column := by
  simp only [columns, List.mem_cons, List.not_mem_nil, or_false] at member
  rcases member with rfl | rfl | rfl
  · exact projection.displayName_lower
  · exact projection.tagsJoined_lower
  · exact projection.hostnamesJoined_lower

section

variable (tools : SearchTools)

/-- `bytes_to_lower_string`. -/
def bytesToLowerString (bytes : List UInt8) : Text :=
  toLowercase tools.toTextTools (decodeLossy bytes)

/-- A text after the others, with a space between. -/
def pushSpaced (out item : Text) : Text :=
  (if out.isEmpty then out else out ++ [' ']) ++ item

/-- `join_lower`. -/
def joinLower (items : List (List UInt8)) : Text :=
  items.foldl (fun out item => pushSpaced out (bytesToLowerString tools item)) []

/-- What `extract_hostnames` makes of one URL: its host, or the URL itself. -/
def hostToken (raw : List UInt8) : Text :=
  let url := decodeLossy raw
  toLowercase tools.toTextTools ((tools.hostStr url).getD url)

/-- `extract_hostnames`. -/
def extractHostnames (urls : List (List UInt8)) : Text :=
  urls.foldl (fun out raw =>
    let token := hostToken tools raw
    if token.isEmpty then out else pushSpaced out token) []

variable {tools}

theorem lowercaseFrom_uncapitalised (before text : Text) :
    Uncapitalised (lowercaseFrom tools.toTextTools before text) := by
  induction text generalizing before with
  | nil => nofun
  | cons char text ih =>
      intro found member
      rw [lowercaseFrom] at member
      rcases List.mem_append.mp member with mapped | later
      · split at mapped
        · rw [List.mem_singleton] at mapped
          split at mapped
          · subst mapped
            decide
          · subst mapped
            decide
        · exact tools.lowercaseMapping_uncapitalised char found mapped
      · exact ih _ found later

theorem toLowercase_uncapitalised (text : Text) :
    Uncapitalised (toLowercase tools.toTextTools text) :=
  lowercaseFrom_uncapitalised [] text

theorem pushSpaced_uncapitalised {out item : Text} (first : Uncapitalised out)
    (second : Uncapitalised item) : Uncapitalised (pushSpaced out item) := by
  intro char member
  rw [pushSpaced] at member
  rcases List.mem_append.mp member with front | back
  · split at front
    · exact first char front
    · rcases List.mem_append.mp front with old | space
      · exact first char old
      · rw [List.mem_singleton.mp space]
        decide
  · exact second char back

/-- A fold keeps the columns small when each step does. -/
theorem foldl_uncapitalised {step : Text → List UInt8 → Text}
    (keeps : ∀ out item, Uncapitalised out → Uncapitalised (step out item))
    (items : List (List UInt8)) {out : Text} (start : Uncapitalised out) :
    Uncapitalised (items.foldl step out) := by
  induction items generalizing out with
  | nil => exact start
  | cons item items ih => exact ih (keeps out item start)

theorem joinLower_uncapitalised (items : List (List UInt8)) :
    Uncapitalised (joinLower tools items) := by
  apply foldl_uncapitalised _ items uncapitalised_nil
  intro out item small
  exact pushSpaced_uncapitalised small (toLowercase_uncapitalised _)

theorem extractHostnames_uncapitalised (urls : List (List UInt8)) :
    Uncapitalised (extractHostnames tools urls) := by
  apply foldl_uncapitalised _ urls uncapitalised_nil
  intro out raw small
  dsimp only
  split
  · exact small
  · exact pushSpaced_uncapitalised small (toLowercase_uncapitalised _)

variable (tools)

/-- `SearchProjection::from_identity`. -/
def SearchProjection.fromIdentity (identity : AccountIdentity) : SearchProjection where
  displayName := bytesToLowerString tools identity.displayName
  tagsJoined := joinLower tools identity.tags
  hostnamesJoined := extractHostnames tools identity.urls
  displayName_lower := toLowercase_uncapitalised _
  tagsJoined_lower := joinLower_uncapitalised _
  hostnamesJoined_lower := extractHostnames_uncapitalised _

/-- `SearchProjection::from_snapshot`. -/
def SearchProjection.fromSnapshot (snapshot : AccountSnapshot) : SearchProjection where
  displayName := bytesToLowerString tools snapshot.displayName
  tagsJoined := []
  hostnamesJoined := if snapshot.url.isEmpty then [] else extractHostnames tools [snapshot.url]
  displayName_lower := toLowercase_uncapitalised _
  tagsJoined_lower := uncapitalised_nil
  hostnamesJoined_lower := by
    split
    · exact uncapitalised_nil
    · exact extractHostnames_uncapitalised _

/-! ## Sanitising -/

/-- `str::split_whitespace`. -/
def splitWhitespace (text : Text) : List Text :=
  (text.splitOnP isWhitespace).filter fun token => !token.isEmpty

/-- The tokens of a query, in lower case. -/
def queryTokens (raw : Text) : List Text :=
  (splitWhitespace raw).map (toLowercase tools.toTextTools)

/-- `fts_quote`. -/
def ftsQuote (token : Text) : Text := quoted token

def backslash : Char := '\x5c'

/-- `like_escape`. -/
def likeEscape (text : Text) : Text := escaped backslash text

inductive SanitisedQuery where
  | empty
  | fts (expr : Text)
  | like (tokens : List Text)
  deriving Repr, DecidableEq

/-- `sanitise_query`. -/
def sanitiseQuery (raw : Text) : SanitisedQuery :=
  let tokens := (queryTokens tools raw).filter fun token => !token.isEmpty
  if tokens.isEmpty then .empty
  else if tokens.any fun token => token.length < 3 then .like tokens
  else .fts ([' '].intercalate (tokens.map ftsQuote))

end

/-! ## Matching -/

/-- Full-text matching of phrases by trigrams: a phrase shorter than a trigram matches no
row, and another matches the columns that contain it. -/
def phrasesMatch (phrases columns : List Text) : Bool :=
  phrases.all fun phrase =>
    3 ≤ phrase.length && columns.any fun column => decide (phrase <:+: column)

/-- The pattern of a token. -/
def likePattern (token : Text) : Text := '%' :: (likeEscape token ++ ['%'])

/-- The `WHERE` clause of the scan. -/
def tokensLike (tokens columns : List Text) : Bool :=
  tokens.all fun token => columns.any fun column => like backslash (likePattern token) column

/-- A token is in one of the columns. -/
def Matches (token : Text) (projection : SearchProjection) : Prop :=
  ∃ column ∈ projection.columns, token <:+: column

/-- Every token of the query is in one of the columns. -/
def Qualifies (tools : SearchTools) (query : Text) (projection : SearchProjection) : Prop :=
  ∀ token ∈ queryTokens tools query, Matches token projection

section

variable {tools : SearchTools} {query : Text} {projection : SearchProjection}

/-- An empty token is in every column. -/
theorem qualifies_iff_nonempty :
    Qualifies tools query projection ↔
      ∀ token ∈ (queryTokens tools query).filter fun token => !token.isEmpty,
        Matches token projection := by
  constructor
  · intro every token member
    exact every token (List.mem_of_mem_filter member)
  · intro every token member
    cases token with
    | nil => exact ⟨_, List.mem_cons_self, List.nil_infix⟩
    | cons char rest => exact every _ (List.mem_filter.mpr ⟨member, rfl⟩)

theorem phrasesMatch_iff {tokens : List Text} (long : ∀ token ∈ tokens, 3 ≤ token.length) :
    phrasesMatch tokens projection.columns = true ↔
      ∀ token ∈ tokens, Matches token projection := by
  simp only [phrasesMatch, List.all_eq_true, List.any_eq_true, Bool.and_eq_true,
    decide_eq_true_eq]
  constructor
  · intro every token member
    exact (every token member).2
  · intro every token member
    exact ⟨long token member, every token member⟩

theorem tokensLike_iff {tokens : List Text} (lower : ∀ token ∈ tokens, Uncapitalised token) :
    tokensLike tokens projection.columns = true ↔
      ∀ token ∈ tokens, Matches token projection := by
  simp only [tokensLike, List.all_eq_true, List.any_eq_true]
  apply forall₂_congr
  intro token member
  apply exists_congr
  intro column
  apply and_congr_right
  intro inside
  rw [likePattern, likeEscape, like_contains (by decide), (lower token member).map_foldAscii,
    (projection.columns_lower inside).map_foldAscii]

end

end Pangolin.Store.Search
