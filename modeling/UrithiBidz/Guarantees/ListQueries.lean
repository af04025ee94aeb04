import UrithiBidz.Guarantees.Catalogue

/-!
# What the lists ask the database for

The query for a list is put together from what a client has sent. None of this gets into its text: a
request is refused before the database is asked, or the database is asked for a page by a text that
was prepared, one for every choice of filters, and all that was sent goes beside it as values
(`UrithiBidz.ListsPage`). That the values stand for the right placeholders is said by what the
database makes of them: the rows that have what was asked for, in their order, from the offset on
and up to the limit.

Both lists do so, whatever the request, and answer with this page of the auctions and the bids that
are stored (`UrithiBidz.Catalogue.listsAnswer`).
-/

namespace UrithiBidz

variable {ρ : Type} {parse : Schema → Json → Schema.Outcome} {v w params : Json}
  {message : Option String} {name : String}

/-! ### What is asked for -/

/-- A field of a request is given. -/
def isGiven : Json → Bool
  | .undefined => false
  | _ => true

/-- A row has what a request asks for in some columns. What is missing may be anything. -/
def Asked (columns : List String) (column : ρ → String → String) (params : Json) (row : ρ) : Bool :=
  columns.all fun name =>
    match params.prop name with
    | .undefined => true
    | .string s => column row name = s
    | _ => false

/-- **The page that a request asks for**: its length and where it starts. -/
structure PageAsked (params : Json) (limit offset : ℕ) : Prop where
  limitAsked : NumberAsked (params.prop "limit") 50 limit
  offsetAsked : NumberAsked (params.prop "offset") 0 offset
  positive : 1 ≤ limit
  short : limit ≤ 500

/-- **A query asks for a page**: by a text that depends on which columns are given only, and it
means the rows that have what was asked for. -/
structure Select.AsksFor (table : String) (columns : List String) (column : ρ → String → String)
    (params : Json) (limit offset : ℕ) (q : Select) : Prop where
  text : q.text =
    (prepared table (columns.filter fun name => isGiven (params.prop name))).text
  rows : ∀ rows, q.rows column rows =
    ((rows.filter (Asked columns column params)).drop offset).take limit

/-- **How a request to a list ends**: it is refused, and the database is not asked; or the database
is asked for the page, and the answer is what it makes of the query. -/
def ListsPage (table : String) (columns : List String) (column : ρ → String → String)
    (params : Json) (route : (Select → Except String (List ρ)) → (ρ → Json) → Response) : Prop :=
  (∃ refusal : Response, refusal.status ≠ 200 ∧ ∀ query json, route query json = refusal) ∨
    ∃ q limit offset error, PageAsked params limit offset ∧
      q.AsksFor table columns column params limit offset ∧
        ∀ query json, route query json = listAnswer json error (query q)

/-- **The answer with a page**: the rows that have what was asked for, from the offset on and up to
the limit, as they are spelled. -/
theorem ListsPage.answered {table : String} {columns : List String}
    {column : ρ → String → String}
    {route : (Select → Except String (List ρ)) → (ρ → Json) → Response}
    (h : ListsPage table columns column params route) (rows : List ρ) (json : ρ → Json)
    (hok : (route (fun q => .ok (q.rows column rows)) json).status = 200) :
    ∃ limit offset, PageAsked params limit offset ∧
      (route (fun q => .ok (q.rows column rows)) json).body.prop "data" = .array
        ((((rows.filter (Asked columns column params)).drop offset).take limit).map json) := by
  rcases h with ⟨refusal, hrefusal, hsame⟩ | ⟨q, limit, offset, error, hpage, hasks, hsame⟩
  · rw [hsame] at hok
    exact absurd hok hrefusal
  · refine ⟨limit, offset, hpage, ?_⟩
    rw [hsame, hasks.rows]
    rfl

namespace Stage

/-- Two accounts. -/
def account (last : Char) : String := String.ofList ('G' :: List.replicate 54 'A' ++ [last])

/-- A bid on the first auction. -/
def placed (bidder amount : String) : SorobanEvent :=
  ⟨501, [.string "bid_placed", .bigint 1, .string bidder],
    .object [("bidder", .string bidder), ("amount", .string amount)], none⟩

end Stage

end UrithiBidz
