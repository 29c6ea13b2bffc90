import Codebook.Dictionary
import Codebook.Proto.File

namespace Codebook.Proto

-- The documented messages of a file by dotted name
def File.documented (file : File) : List (String × List String) :=
  (file.allMessages.map fun (name, message) => (name, message.doc)).filter
    fun (_, doc) => !doc.isEmpty

-- The docs of all messages of some files. Of several docs for one name the last is kept.
def messageDocs (files : List File) : Dictionary String (List String) :=
  Dictionary.ofList (files.flatMap File.documented)

end Codebook.Proto
