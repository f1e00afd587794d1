import OptimisticStore.Family
import OptimisticStore.Relation.Schema
import OptimisticStore.Relation.Walk
/-!
Authors and their posts: two families of nodes that refer to each other.

An author has posts and may have a mentor; a post has an author. A feed holds posts inline.
-/
namespace OptimisticStore.Blog

def authorSchema : Schema :=
  (({ typeName := "Author" } : Schema).relation "posts" "post" .list).relation "mentor" "author" .single
    |>.scenario "mentorship" ["mentor"]

def postSchema : Schema := ({ typeName := "Post" } : Schema).relation "author" "author" .single

def feedSchema : Schema := ({ typeName := "Feed" } : Schema).nested "posts"

def schemas : List Schema := [authorSchema, postSchema, feedSchema]

def author (columns : Columns) (posts : List Ref) (mentor : Ref) : Node :=
  .mk "Author" columns (.ofList [
    ("posts", .group (.sequence .reference) (.ofList (posts.map fun post =>
      ("", .reference (.only "Post") post)))),
    ("mentor", .reference (.only "Author") mentor)])

def post (columns : Columns) (author : Ref) : Node :=
  .mk "Post" columns (.ofList [("author", .reference (.only "Author") author)])

def feed (posts : List Node) : Node :=
  .mk "Feed" {} (.ofList [
    ("posts", .group (.sequence .node) (.ofList (posts.map fun post => ("", .node post))))])

def nodeFamily (kind : String) : Family Int64 Node where
  kind := kind
  key node := node.columns.id
  withKey key node := node.withId key

def authorFamily : Family Int64 Node := nodeFamily "author"

def postFamily : Family Int64 Node := nodeFamily "post"

end OptimisticStore.Blog
