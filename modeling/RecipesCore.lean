import RecipesCore.App.Classification
import RecipesCore.App.DatabaseExecutor
import RecipesCore.App.Draining
import RecipesCore.App.Guarantees
import RecipesCore.App.Identity
import RecipesCore.App.RecipeBatches
import RecipesCore.App.RecipeWrites
import RecipesCore.App.Requirements
import RecipesCore.App.Stock
import RecipesCore.App.Threads
import RecipesCore.Config.ServerConfig
import RecipesCore.Io.Console
import RecipesCore.Io.Options
import RecipesCore.Io.Payload
import RecipesCore.Main.Program
import RecipesCore.Main.StopSignal
import RecipesCore.Server.Answering
import RecipesCore.Server.Capacity
import RecipesCore.Server.Confidential
import RecipesCore.Server.Conversations
import RecipesCore.Server.Creation
import RecipesCore.Server.ErrorCodes
import RecipesCore.Server.ErrorResponses
import RecipesCore.Server.Hsts
import RecipesCore.Server.Lifecycle
import RecipesCore.Server.Linearizability
import RecipesCore.Server.RoundTrip
import RecipesCore.Server.Startup
import RecipesCore.Server.Targets
