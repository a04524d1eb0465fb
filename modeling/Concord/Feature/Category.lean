import Concord.Feature.Features

namespace Concord

structure Category where
  symbol : String
  features : Features := .empty
  deriving DecidableEq

def Category.render (category : Category) : String :=
  category.symbol ++ category.features.render

end Concord
